import Simbus.Lxt2.Flush
import Mathlib

/-!
# Granules on their way into the file

When a granule is complete it goes behind the others of its section, and the
section ends with it when it is the last one.  What has been recorded so far can
be read page by page: granules, each with the strings of its section.
-/

set_option autoImplicit false

namespace Simbus.Lxt2

open ByteFormat Numbering

namespace Trace

/-! ## A granule is flushed -/

/-- What has been written of the section that has not ended. -/
def pending (trace : Trace) : List UInt8 :=
  if trace.timegranule = 0 then [] else trace.zhandle.contents

/-- The section has room for other granules. -/
structure GoesOn
    (trace : Trace)
    (written : WrittenGranule)
    (mapdict : Dictionary Nat)
    (trace' : Trace) : Prop where
  more : trace.timegranule + 1 < trace.maxgranule
  sameDict : trace'.dict = trace.dict
  isMapdict : trace'.mapdict = mapdict
  counted : trace'.timegranule = trace.timegranule + 1
  sameSections : trace'.sections = trace.sections
  contents : trace'.zhandle.contents = trace.pending ++ written.bytes

/-- The section is complete, and the dictionaries start anew. -/
structure Ends
    (trace : Trace)
    (written : WrittenGranule)
    (mapdict : Dictionary Nat)
    (trace' : Trace) : Prop where
  noDict : trace'.dict = .empty
  noMapdict : trace'.mapdict = .empty
  counted : trace'.timegranule = 0
  addsSection : ∃ fileSection stringMem,
    trace'.sections = trace.sections ++ [fileSection] ∧
      fileSection.contents = trace.pending ++ (written.bytes ++
        (dictBytes trace.dict.items ++ (mapdict.items.flatMap (bigEndian 8) ++
          trailerBytes trace.dict.items.length stringMem mapdict.items.length)))

/-- The symbols are written and cleared. -/
structure Flushed
    (trace : Trace)
    (doFinalize : Bool)
    (written : WrittenGranule)
    (mapdict : Dictionary Nat)
    (trace' : Trace) : Prop where
  granulates : Granulates trace written mapdict
  frame : trace' =
    { trace with
      dict := trace'.dict
      dictStringMemRequired := trace'.dictStringMemRequired
      mapdict := trace'.mapdict
      symbols := trace.symbols.map Symbol.cleared
      timegranule := trace'.timegranule
      timepos := 0
      flushtime := trace'.flushtime
      flushValid := doFinalize
      granuleDirty := false
      zhandle := trace'.zhandle
      sections := trace'.sections }
  room : trace'.zhandle.HasRoom
  next : GoesOn trace written mapdict trace' ∧ doFinalize = false ∨
    Ends trace written mapdict trace'

section

variable {trace trace' : Trace}
variable {written : WrittenGranule}
variable {mapdict : Dictionary Nat}
variable {doFinalize : Bool}

/-- A granule is flushed without an access outside of the arrays. -/
theorem flushGranule_spec
    (someSymbols : trace.symbols ≠ [])
    (sorted : trace.sortedFacs = some trace.order)
    (inside : trace.timepos ≤ granuleSize)
    (room : trace.zhandle.HasRoom)
    (goes : ¬ (trace.flushValid && decide (trace.flushtime = trace.lasttime)) =
      true)
    (doFinalize : Bool) :
    ∃ trace' written mapdict, trace.flushGranule doFinalize = some trace' ∧
      Flushed trace doFinalize written mapdict trace' := by
  have roomThere : (if trace.timegranule = 0 then GzStream.opened
      else trace.zhandle).HasRoom := by
    split
    · exact GzStream.opened_hasRoom
    · exact room
  have isPending : (if trace.timegranule = 0 then GzStream.opened
      else trace.zhandle).contents = trace.pending := by
    rw [pending]
    split
    · rfl
    · rfl
  obtain ⟨written, mapdict, stream, isGranule, ⟨roomLeft, added⟩, granulates⟩ :=
    @emitGranule_spec
      { trace with
        flushValid := false
        granuleDirty := false
        zhandle := if trace.timegranule = 0 then .opened else trace.zhandle }
      someSymbols sorted inside roomThere
  have isWritten : Granulates trace written mapdict :=
    ⟨granulates.isGranule, granulates.isMapNbytes, granulates.isIdxNbytes,
      granulates.areNumbers, granulates.grows, granulates.onlyUsed,
      granulates.atMost⟩
  rw [isPending] at added
  rw [flushGranule, if_neg goes]
  simp only [Option.bind_eq_bind, isGranule, Option.bind_some]
  split
  · obtain ⟨ended, isEnded, roomEnd, addedEnd⟩ := @finalizeSection_spec
      { trace with
        flushValid := false
        granuleDirty := false
        mapdict := mapdict
        symbols := trace.symbols.map Symbol.cleared
        zhandle := stream
        timepos := 0
        timegranule := trace.timegranule + 1 } roomLeft
    have isContents : ended.contents = trace.pending ++ (written.bytes ++
        (dictBytes trace.dict.items ++ (mapdict.items.flatMap (bigEndian 8) ++
          trailerBytes trace.dict.items.length trace.dictStringMemRequired
            mapdict.items.length))) := by
      rw [addedEnd, added, List.append_assoc]
    refine ⟨_, written, mapdict, by
      rw [isEnded]
      rfl, ?_⟩
    cases doFinalize with
    | false =>
        exact ⟨isWritten, rfl, roomEnd,
          .inr ⟨rfl, rfl, rfl, _, trace.dictStringMemRequired, rfl, isContents⟩⟩
    | true =>
        exact ⟨isWritten, rfl, roomEnd,
          .inr ⟨rfl, rfl, rfl, _, trace.dictStringMemRequired, rfl, isContents⟩⟩
  · rename_i goesOn
    rw [Bool.or_eq_true, decide_eq_true_eq, not_or, Nat.not_le,
      Bool.not_eq_true] at goesOn
    obtain ⟨more, rfl⟩ := goesOn
    exact ⟨_, written, mapdict, rfl, isWritten, rfl, roomLeft,
      .inl ⟨⟨more, rfl, rfl, rfl, rfl, added⟩, rfl⟩⟩

/-- The shapes of the symbols stay. -/
theorem Flushed.facilities_eq
    (flushed : Flushed trace doFinalize written mapdict trace') :
    trace'.facilities = trace.facilities := by
  rw [flushed.frame]
  change (trace.symbols.map Symbol.cleared).map Symbol.facility = _
  rw [List.map_map]
  rfl

theorem Flushed.valueAt_eq
    (flushed : Flushed trace doFinalize written mapdict trace') :
    trace'.valueAt = trace.valueAt := by
  rw [flushed.frame]
  funext handle
  change ((trace.symbols.map Symbol.cleared)[handle]?).map Symbol.value = _
  rw [List.getElem?_map, Option.map_map]
  rfl

theorem Flushed.length_eq
    (flushed : Flushed trace doFinalize written mapdict trace') :
    trace'.symbols.length = trace.symbols.length := by
  rw [flushed.frame]
  exact List.length_map _

/-- The masks that are used are words. -/
theorem Flushed.masks
    {bumptime flushValid : Bool}
    (flushed : Flushed
      { trace with
        bumptime := bumptime
        timepos := trace.timepos + 1
        flushValid := flushValid }
      doFinalize written mapdict trace')
    (holds : trace.Holds) :
    ∀ msk ∈ mapdict.items, msk < 2 ^ granuleSize := by
  intro msk member
  rcases flushed.granulates.onlyUsed msk member with
    isOld | ⟨symbol, isSymbol, rfl⟩
  · exact holds.masks msk isOld
  · exact Nat.lt_of_lt_of_le (holds.symbols symbol isSymbol).masked
      (Nat.pow_le_pow_right Nat.two_pos (Nat.succ_le_of_lt holds.position))

/-- The invariant holds again at the first position of the next granule. -/
theorem Flushed.holds
    {bumptime flushValid : Bool}
    (flushed : Flushed
      { trace with
        bumptime := bumptime
        timepos := trace.timepos + 1
        flushValid := flushValid }
      doFinalize written mapdict trace')
    (holds : trace.Holds)
    (isEmitted : trace.emitted = true) :
    trace'.Holds := by
  have sameFacilities := flushed.facilities_eq
  have sameNames : trace'.names = trace.names := by
    rw [names_eq, names_eq, sameFacilities]
    rfl
  obtain ⟨someSymbols, isSorted, isHeader⟩ := holds.written isEmitted
  have inSection : trace'.timegranule < trace.maxgranule ∧
      (∀ text ∈ trace'.dict.items, IsCString text) ∧
      (∀ msk ∈ trace'.mapdict.items, msk < 2 ^ granuleSize) ∧
      (doFinalize = true → trace'.timegranule = 0) := by
    rcases flushed.next with ⟨goesOn, notFinal⟩ | ends
    · rw [goesOn.counted, goesOn.sameDict, goesOn.isMapdict]
      refine ⟨goesOn.more, holds.texts, flushed.masks holds, fun isFinal => ?_⟩
      rw [notFinal] at isFinal
      cases isFinal
    · rw [ends.counted, ends.noDict, ends.noMapdict]
      exact ⟨Nat.zero_lt_of_lt holds.granule,
        fun _ member => absurd member List.not_mem_nil,
        fun _ member => absurd member List.not_mem_nil, fun _ => rfl⟩
  have room := flushed.room
  have sameOrder : trace'.order = trace.order := order_congr sameFacilities
  have sameHeader : trace'.facHeader = trace.facHeader := by
    apply facHeader_congr sameFacilities
    · rw [flushed.frame]
    · rw [flushed.frame]
  have isFrame := flushed.frame
  generalize trace'.dict = dict, trace'.dictStringMemRequired = stringMem,
    trace'.mapdict = masks, trace'.timegranule = timegranule,
    trace'.flushtime = flushtime, trace'.zhandle = zhandle,
    trace'.sections = sections at *
  subst isFrame
  exact
    { table := sameNames ▸ holds.table
      distinct := sameNames ▸ holds.distinct
      namesText := sameNames ▸ holds.namesText
      position := Nat.zero_lt_of_lt holds.position
      granule := inSection.1
      symbols := by
        intro symbol member
        obtain ⟨old, isOld, rfl⟩ := List.mem_map.mp member
        exact (holds.symbols old isOld).cleared _
      texts := inSection.2.1
      masks := inSection.2.2.1
      room := room
      written := fun _ =>
        ⟨fun none => someSymbols (List.map_eq_nil_iff.mp none),
          isSorted.trans (congrArg some sameOrder.symm),
          isHeader.trans (congrArg some sameHeader.symm)⟩
      fresh := fun notEmitted => absurd (notEmitted.symm.trans isEmitted)
        Bool.false_ne_true
      flushed := fun isFinal => later_eq_false_iff.mpr
        ⟨rfl, inSection.2.2.2 isFinal⟩
      free := by
        intro _ _ symbol member
        obtain ⟨old, _, rfl⟩ := List.mem_map.mp member
        exact Nat.zero_testBit 0 }

end

end Trace

/-! ## Pages -/

/-- A granule with the strings of its section. -/
structure Page where
  strings : List Text
  granule : Granule

/-- The pages of a section that can be read. -/
def Section.pages (part : Section) : List Page :=
  part.granules.map (Page.mk part.strings)

namespace Trace

/-- The sections of a trace can be read, and so will the granules of the next one. -/
structure Recorded
    (trace : Trace)
    (past : List Section)
    (done : List WrittenGranule) : Prop where
  past : (trace.sections.mapM fun fileSection =>
    readSection trace.symbols.length fileSection.contents) = some past
  pending : trace.pending = done.flatMap WrittenGranule.bytes
  legible : ∀ written ∈ done,
    written.Legible trace.mapdict.items trace.symbols.length
  atStart : trace.timegranule = 0 → done = []

/-- The pages that have been written, with the strings that there are by now. -/
def pages
    (trace : Trace)
    (past : List Section)
    (done : List WrittenGranule) : List Page :=
  past.flatMap Section.pages ++
    done.map fun written => ⟨trace.dict.items, written.granule⟩

section

variable {trace trace' : Trace}
variable {written : WrittenGranule}
variable {mapdict : Dictionary Nat}
variable {doFinalize : Bool}
variable {past : List Section}
variable {done : List WrittenGranule}

/-- A granule that is flushed is the next page. -/
theorem Flushed.recorded
    {bumptime flushValid : Bool}
    (flushed : Flushed
      { trace with
        bumptime := bumptime
        timepos := trace.timepos + 1
        flushValid := flushValid }
      doFinalize written mapdict trace')
    (holds : trace.Holds)
    (dictFits : trace.dict.count + dictStart ≤ 256 ^ 4)
    (mapFits : trace.mapdict.count + trace.symbols.length < 256 ^ 4)
    (recorded : trace.Recorded past done) :
    ∃ past' done', trace'.Recorded past' done' ∧
      trace'.pages past' done' =
        trace.pages past done ++ [⟨trace.dict.items, written.granule⟩] := by
  have sameLength : trace'.symbols.length = trace.symbols.length :=
    flushed.length_eq
  have atMost : mapdict.count < 256 ^ 4 :=
    Nat.lt_of_le_of_lt flushed.granulates.atMost mapFits
  have isLegible : written.Legible mapdict.items trace.symbols.length :=
    flushed.granulates.legible holds.position holds.symbols dictFits atMost.le
  have legible : ∀ other ∈ done ++ [written],
      other.Legible mapdict.items trace.symbols.length := by
    intro other member
    rcases List.mem_append.mp member with isOld | isNew
    · exact (recorded.legible other isOld).mono flushed.granulates.grows
    · rwa [List.mem_singleton.mp isNew]
  have bytes : (done ++ [written]).flatMap WrittenGranule.bytes =
      trace.pending ++ written.bytes := by
    rw [recorded.pending, List.flatMap_append, List.flatMap_singleton]
  rcases flushed.next with ⟨goesOn, _⟩ | ends
  · refine ⟨past, done ++ [written], ⟨?_, ?_, ?_, ?_⟩, ?_⟩
    · rw [sameLength, goesOn.sameSections]
      exact recorded.past
    · rw [bytes, Trace.pending, if_neg (by
        rw [goesOn.counted]
        exact Nat.succ_ne_zero _)]
      exact goesOn.contents
    · rw [sameLength, goesOn.isMapdict]
      exact legible
    · intro atStart
      rw [goesOn.counted] at atStart
      cases atStart
    · rw [pages, pages, goesOn.sameDict, List.map_append, List.append_assoc]
      rfl
  · obtain ⟨fileSection, stringMem, isSections, isContents⟩ := ends.addsSection
    have isSection : fileSection.contents =
        sectionBytes (done ++ [written]) trace.dict.items mapdict.items
          stringMem := by
      rw [sectionBytes, bytes, isContents, List.append_assoc]
      rfl
    have dictFits' : trace.dict.items.length < 256 ^ 4 := by
      rw [length_items]
      exact Nat.lt_of_lt_of_le (Nat.lt_add_of_pos_right (by decide)) dictFits
    have read := readSection_sectionBytes stringMem legible holds.texts dictFits'
      (by rwa [length_items]) (flushed.masks holds)
    rw [← isSection] at read
    refine ⟨past ++
      [⟨(done ++ [written]).map WrittenGranule.granule, trace.dict.items⟩], [],
      ⟨?_, ?_, ?_, fun _ => rfl⟩, ?_⟩
    · rw [sameLength, isSections, List.mapM_append]
      change ((trace.sections.mapM fun fileSection =>
        readSection trace.symbols.length fileSection.contents).bind _) = _
      rw [recorded.past]
      simp only [Option.bind_some, List.mapM_cons, List.mapM_nil, read]
      rfl
    · rw [Trace.pending, ends.counted]
      rfl
    · intro other member
      exact absurd member List.not_mem_nil
    · simp only [pages, Section.pages, List.flatMap_append, List.flatMap_singleton,
        List.map_append, List.map_map, List.append_assoc]
      rfl

end

end Trace

end Simbus.Lxt2
