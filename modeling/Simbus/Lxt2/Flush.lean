import Simbus.Lxt2.Values
import Mathlib

/-!
# Granules and sections are written

A granule is written with the masks of the symbols by their numbers.  The masks
and strings only get more while a section lasts, so whatever has been written
stays legible until its end.
-/

set_option autoImplicit false

namespace Simbus.Lxt2

open ByteFormat Numbering Splay

/-! ## Masks -/

/-- Masks that are used have numbers, in a dictionary that has grown. -/
theorem foldl_useMap
    (msks : List Nat)
    (mapdict : Dictionary Nat) :
    mapdict.items <+:
        (msks.foldl (fun mapdict msk => (Trace.useMap mapdict msk).1) mapdict).items ∧
      (∀ msk ∈ msks, msk ∈
        (msks.foldl (fun mapdict msk => (Trace.useMap mapdict msk).1) mapdict).items) ∧
      (∀ msk ∈
        (msks.foldl (fun mapdict msk => (Trace.useMap mapdict msk).1) mapdict).items,
          msk ∈ mapdict.items ∨ msk ∈ msks) ∧
      (msks.foldl (fun mapdict msk => (Trace.useMap mapdict msk).1) mapdict).count ≤
        mapdict.count + msks.length := by
  induction msks generalizing mapdict with
  | nil =>
      exact ⟨List.prefix_rfl, fun _ member => absurd member List.not_mem_nil,
        fun _ member => .inl member, Nat.le_refl _⟩
  | cons msk msks inductionHypothesis =>
      have isKnown : decide ((splay msk mapdict.tree).root?.map Prod.fst = some msk) =
          true ↔ msk ∈ mapdict.items :=
        decide_eq_true_iff.trans (root_splay_iff_mem mapdict)
      obtain ⟨number, _, isItem, grows, others⟩ := use_spec mapdict isKnown
      have atMost := count_use_le mapdict isKnown
      obtain ⟨growsOn, isUsed, onlyUsed, atMostAll⟩ :=
        inductionHypothesis (Trace.useMap mapdict msk).1
      refine ⟨grows.trans growsOn, ?_, ?_, ?_⟩
      · intro other member
        rcases List.mem_cons.mp member with rfl | isLater
        · exact growsOn.subset (List.mem_of_getElem? isItem)
        · exact isUsed other isLater
      · intro other member
        rcases onlyUsed other member with isEarlier | isLater
        · rcases others other isEarlier with rfl | isOld
          · exact .inr List.mem_cons_self
          · exact .inl isOld
        · exact .inr (List.mem_cons_of_mem _ isLater)
      · have isStep : (Trace.useMap mapdict msk).1.count ≤ mapdict.count + 1 := atMost
        rw [List.foldl_cons, List.length_cons]
        omega

/-- The numbers of masks that are all known are written. -/
theorem emitMaps_spec
    {mapNbytes : Nat}
    (narrow : mapNbytes ≤ 4)
    {msks : List Nat}
    {mapdict : Dictionary Nat}
    (known : ∀ msk ∈ msks, msk ∈ mapdict.items)
    {stream : GzStream}
    (room : stream.HasRoom) :
    ∃ numbers mapdict' stream',
      Trace.emitMaps mapNbytes msks mapdict stream = some (mapdict', stream') ∧
        stream.Adds (numbers.flatMap (bigEndian mapNbytes)) stream' ∧
        mapdict'.items = mapdict.items ∧
        List.Forall₂ (fun number msk => mapdict.items[number]? = some msk)
          numbers msks := by
  induction msks generalizing mapdict stream with
  | nil =>
      exact ⟨[], mapdict, stream, rfl, ⟨room, (List.append_nil _).symm⟩, rfl, .nil⟩
  | cons msk msks inductionHypothesis =>
      rw [List.forall_mem_cons] at known
      obtain ⟨number, isItem⟩ := List.mem_iff_getElem?.mp known.1
      obtain ⟨middle, isMiddle, roomLeft, added⟩ :=
        GzStream.emitNumber_emits narrow number stream room
      obtain ⟨numbers, mapdict', stream', isRest, addsRest, sameItems, areItems⟩ :=
        @inductionHypothesis (mapdict.splayTo msk) known.2 middle roomLeft
      refine ⟨number :: numbers, mapdict', stream', ?_, ⟨addsRest.1, ?_⟩,
        sameItems, .cons isItem areItems⟩
      · rw [Trace.emitMaps]
        simp only [rootNumber_splayTo mapdict isItem, Option.bind_eq_bind,
          Option.bind_some, isMiddle]
        exact isRest
      · rw [addsRest.2, added, List.flatMap_cons, List.append_assoc]

/-! ## Symbols -/

/-- Symbols at all places are cleared. -/
theorem foldl_modify_eq_map
    {α : Type}
    {f : α → α}
    (twice : ∀ item, f (f item) = f item)
    {items : List α}
    {handles : List Nat}
    (all : ∀ handle < items.length, handle ∈ handles) :
    handles.foldl (fun items handle => items.modify handle f) items =
      items.map f := by
  have atPlace (handles : List Nat) : ∀ (items : List α) (place : Nat),
      (handles.foldl (fun items handle => items.modify handle f) items)[place]? =
        if place ∈ handles then (items[place]?).map f else items[place]? := by
    induction handles with
    | nil =>
        intro items place
        rw [if_neg List.not_mem_nil]
        rfl
    | cons handle handles inductionHypothesis =>
        intro items place
        rw [List.foldl_cons, inductionHypothesis]
        by_cases same : handle = place
        · subst same
          rw [List.getElem?_modify_eq, if_pos List.mem_cons_self]
          split
          · cases items[handle]? with
            | none =>
                rfl
            | some item =>
                exact congrArg some (twice item)
          · rfl
        · rw [List.getElem?_modify_ne _ _ same]
          simp only [List.mem_cons, Ne.symm same, false_or]
  apply List.ext_getElem?
  intro place
  rw [atPlace, List.getElem?_map]
  split
  · rfl
  · rename_i notThere
    have outside : items.length ≤ place :=
      Nat.not_lt.mp fun inside => notThere (all place inside)
    rw [List.getElem?_eq_none outside]
    rfl

/-! ## Granules -/

/-- A granule is written as its symbols are, at the positions up to the present one. -/
structure Granulates
    (trace : Trace)
    (written : WrittenGranule)
    (mapdict : Dictionary Nat) : Prop where
  isGranule : written.granule =
    { times := trace.timetable.toList.take trace.timepos
      columns := (arrange trace.symbols trace.order).map Symbol.column }
  isMapNbytes : written.mapNbytes = nbytes mapdict.count
  isIdxNbytes : written.idxNbytes = nbytes (trace.dict.count + dictStart)
  areNumbers : List.Forall₂
    (fun number column => mapdict.items[number]? = some column.msk)
    written.numbers written.granule.columns
  grows : trace.mapdict.items <+: mapdict.items
  onlyUsed : ∀ msk ∈ mapdict.items,
    msk ∈ trace.mapdict.items ∨ ∃ symbol ∈ trace.symbols, symbol.msk = msk
  atMost : mapdict.count ≤ trace.mapdict.count + trace.symbols.length

theorem nbytes_le (entries : Nat) : nbytes entries ≤ 4 := by
  rw [nbytes]
  repeat' split
  all_goals decide

/-- A number below some bound fits into its bytes. -/
theorem lt_nbytes
    {number entries : Nat}
    (below : number < entries)
    (fits : entries ≤ 256 ^ 4) :
    number < 256 ^ nbytes entries := by
  rw [nbytes]
  repeat' split
  all_goals omega

theorem block?_eq_take
    {α : Type}
    {size count : Nat}
    (cells : Vector α size)
    (inside : count ≤ size) :
    CheckedArray.block? cells 0 count = some (cells.toList.take count) := by
  have isSome : (CheckedArray.block? cells 0 count).isSome = true :=
    (CheckedArray.block?_isSome cells 0 count).mpr
      (CheckedArray.inside_of_le (by rwa [Nat.zero_add]))
  obtain ⟨values, isValues⟩ := Option.isSome_iff_exists.mp isSome
  rw [isValues]
  congr 1
  apply List.ext_getElem?
  intro place
  by_cases below : place < count
  · rw [CheckedArray.block?_getElem isValues below, Nat.zero_add,
      List.getElem?_take, if_pos below]
    simp
  · rw [List.getElem?_eq_none, List.getElem?_eq_none]
    · rw [List.length_take]
      omega
    · rw [CheckedArray.block?_length isValues]
      omega

section

variable {trace : Trace}

theorem order_all
    {handle : Nat}
    (inside : handle < trace.symbols.length) :
    handle ∈ trace.order :=
  trace.order_perm.mem_iff.mpr (List.mem_range.mpr inside)

theorem mem_arrange_order
    {symbol : Symbol}
    (member : symbol ∈ arrange trace.symbols trace.order) :
    symbol ∈ trace.symbols := by
  obtain ⟨handle, _, isSymbol⟩ := List.mem_filterMap.mp member
  exact List.mem_of_getElem? isSymbol

theorem length_arrange_order :
    (arrange trace.symbols trace.order).length = trace.symbols.length := by
  rw [length_arrange fun _ => Trace.order_inside, trace.order_perm.length_eq,
    List.length_range]

theorem emitChanges_emits
    {idxNbytes : Nat}
    (narrow : idxNbytes ≤ 4)
    (column : Column) :
    GzStream.Emits (Trace.emitChanges idxNbytes column)
      (column.chg.flatMap fun encoding => bigEndian idxNbytes encoding.code) :=
  GzStream.emitEach_emits fun encoding _ =>
    GzStream.emitNumber_emits narrow encoding.code

/-- The granule goes behind what has been written, and the symbols are cleared. -/
theorem emitGranule_spec
    (someSymbols : trace.symbols ≠ [])
    (sorted : trace.sortedFacs = some trace.order)
    (inside : trace.timepos ≤ granuleSize)
    (room : trace.zhandle.HasRoom) :
    ∃ written mapdict stream,
      trace.emitGranule =
        some { trace with
          mapdict := mapdict
          symbols := trace.symbols.map Symbol.cleared
          zhandle := stream } ∧
      trace.zhandle.Adds written.bytes stream ∧
      Granulates trace written mapdict := by
  have someLength : ¬ trace.symbols.length = 0 := fun none =>
    someSymbols (List.eq_nil_of_length_eq_zero none)
  have isColumns : (trace.order.mapM fun handle =>
      (trace.symbols[handle]?).map Symbol.column) =
        some ((arrange trace.symbols trace.order).map Symbol.column) :=
    mapM_getElem? (fun _ => Trace.order_inside) Symbol.column
  have lengthColumns :
      ((arrange trace.symbols trace.order).map Symbol.column).length =
        trace.symbols.length := by
    rw [List.length_map, length_arrange_order]
  have ofSymbol : ∀ column ∈
      (arrange trace.symbols trace.order).map Symbol.column,
      ∃ symbol ∈ trace.symbols, symbol.msk = column.msk := by
    intro column member
    obtain ⟨symbol, isArranged, rfl⟩ := List.mem_map.mp member
    exact ⟨symbol, mem_arrange_order isArranged, rfl⟩
  generalize isArranged :
    (arrange trace.symbols trace.order).map Symbol.column = columns at *
  obtain ⟨grows, isUsed, onlyUsed, atMost⟩ :=
    foldl_useMap (columns.map Column.msk) trace.mapdict
  rw [List.length_map, lengthColumns] at atMost
  generalize isMapdict : (columns.map Column.msk).foldl
    (fun mapdict msk => (Trace.useMap mapdict msk).1) trace.mapdict = mapdict at *
  have one : 1 ≤ 4 := Nat.le_add_left 1 3
  have isTimes := block?_eq_take trace.timetable inside
  have lengthTimes : (trace.timetable.toList.take trace.timepos).length =
      trace.timepos := by
    rw [List.length_take, Vector.length_toList]
    exact Nat.min_eq_left inside
  have emitsTimes : GzStream.Emits
      (GzStream.emitEach (fun time : BitVec 64 => GzStream.emitU64z time.toNat)
        (trace.timetable.toList.take trace.timepos))
      ((trace.timetable.toList.take trace.timepos).flatMap
        fun time => bigEndian 8 time.toNat) :=
    GzStream.emitEach_emits fun time _ => GzStream.emitU64z_emits time.toNat
  have emitsChanges : GzStream.Emits
      (GzStream.emitEach
        (Trace.emitChanges (nbytes (trace.dict.count + dictStart))) columns)
      (columns.flatMap fun column => column.chg.flatMap fun encoding =>
        bigEndian (nbytes (trace.dict.count + dictStart)) encoding.code) :=
    GzStream.emitEach_emits fun column _ => emitChanges_emits (nbytes_le _) column
  obtain ⟨tagged, isTagged, room₁, added₁⟩ :=
    GzStream.emitNumber_emits one granSectTime trace.zhandle room
  obtain ⟨counted, isCounted, room₂, added₂⟩ :=
    GzStream.emitNumber_emits one trace.timepos tagged room₁
  obtain ⟨timed, isTimed, room₃, added₃⟩ := emitsTimes counted room₂
  obtain ⟨wide, isWide, room₄, added₄⟩ :=
    GzStream.emitNumber_emits one (nbytes mapdict.count) timed.flushBuffered
      (GzStream.flushBuffered_hasRoom timed)
  obtain ⟨numbers, mapdict', mapped, isMapped, addsMaps, sameItems, areItems⟩ :=
    emitMaps_spec (nbytes_le mapdict.count) isUsed room₄
  obtain ⟨wider, isWider, room₅, added₅⟩ :=
    GzStream.emitNumber_emits one (nbytes (trace.dict.count + dictStart)) mapped
      addsMaps.1
  obtain ⟨changed, isChanged, room₆, added₆⟩ :=
    emitsChanges wider.flushBuffered (GzStream.flushBuffered_hasRoom wider)
  have sameCount : mapdict'.count = mapdict.count := by
    rw [← length_items, ← length_items, sameItems]
  have paired : List.Forall₂
      (fun number column => mapdict.items[number]? = some column.msk)
      numbers columns :=
    (@List.forall₂_map_right_iff _ _ _
      (fun number msk => mapdict.items[number]? = some msk) Column.msk
      numbers columns).mp areItems
  refine
    ⟨{ granule :=
        { times := trace.timetable.toList.take trace.timepos
          columns := columns }
       numbers := numbers
       mapNbytes := nbytes mapdict.count
       idxNbytes := nbytes (trace.dict.count + dictStart) },
      mapdict', changed.flushBuffered, ?_,
      ⟨GzStream.flushBuffered_hasRoom changed, ?_⟩, ?_⟩
  · have cleared : trace.order.foldl (fun symbols handle =>
        symbols.modify handle Symbol.cleared) trace.symbols =
          trace.symbols.map Symbol.cleared :=
      @foldl_modify_eq_map Symbol Symbol.cleared (fun _ => rfl) trace.symbols
        trace.order fun _ => order_all
    rw [Trace.emitGranule, if_neg someLength, sorted]
    simp only [Option.bind_eq_bind, Option.bind_some, isColumns, isMapdict,
      isTagged, isCounted, isTimes, isTimed, isWide, isMapped, isWider, isChanged,
      cleared]
  · rw [GzStream.contents_flushBuffered, added₆, GzStream.contents_flushBuffered,
      added₅, addsMaps.2, added₄, GzStream.contents_flushBuffered, added₃, added₂,
      added₁]
    simp only [WrittenGranule.bytes, granuleBytes, timesBytes, mapsBytes,
      changesBytes, lengthTimes, List.append_assoc]
  · exact
      { isGranule := by
          rw [isArranged]
        isMapNbytes := by
          rw [sameCount]
        isIdxNbytes := rfl
        areNumbers := by
          rw [sameItems]
          exact paired
        grows := sameItems ▸ grows
        onlyUsed := by
          intro msk member
          rw [sameItems] at member
          refine (onlyUsed msk member).imp id fun isMask => ?_
          obtain ⟨column, isColumn, rfl⟩ := List.mem_map.mp isMask
          exact ofSymbol column isColumn
        atMost := sameCount ▸ atMost }

/-! ## Legibility -/

/-- Masks that come later do not matter to a reader. -/
theorem Legible.mono
    {maps maps' : List Nat}
    {mapNbytes idxNbytes : Nat}
    {numbers : List Nat}
    {granule : Granule}
    (legible : Legible maps mapNbytes idxNbytes numbers granule)
    (grows : maps <+: maps') :
    Legible maps' mapNbytes idxNbytes numbers granule :=
  { legible with
    isMap := by
      obtain ⟨more, rfl⟩ := grows
      refine legible.isMap.imp fun number column isMap => ?_
      have inside := (List.getElem?_eq_some_iff.mp isMap).1
      exact (List.getElem?_append_left inside).trans isMap }

theorem WrittenGranule.Legible.mono
    {maps maps' : List Nat}
    {numfacs : Nat}
    {written : WrittenGranule}
    (legible : written.Legible maps numfacs)
    (grows : maps <+: maps') :
    written.Legible maps' numfacs :=
  ⟨Lxt2.Legible.mono legible.1 grows, legible.2⟩

/-- What is written of the symbols can be read with the masks that there are. -/
theorem Granulates.legible
    {written : WrittenGranule}
    {mapdict : Dictionary Nat}
    (granulates : Granulates trace written mapdict)
    {timepos : Nat}
    (inside : timepos < granuleSize)
    (symbols : ∀ symbol ∈ trace.symbols,
      symbol.Holds timepos trace.dict.count)
    (dictFits : trace.dict.count + dictStart ≤ 256 ^ 4)
    (mapFits : mapdict.count ≤ 256 ^ 4) :
    written.Legible mapdict.items trace.symbols.length := by
  have ofSymbol : ∀ column ∈ written.granule.columns,
      ∃ symbol : Symbol, symbol.Holds timepos trace.dict.count ∧
        symbol.column = column := by
    intro column member
    rw [granulates.isGranule] at member
    obtain ⟨symbol, isArranged, isColumn⟩ := List.mem_map.mp member
    exact ⟨symbol, symbols symbol (mem_arrange_order isArranged), isColumn⟩
  have narrow (entries : Nat) : nbytes entries < 256 :=
    Nat.lt_of_le_of_lt (nbytes_le entries) (by decide)
  refine ⟨?_, ?_⟩
  · exact
      { times := by
          rw [granulates.isGranule, List.length_take, Vector.length_toList]
          exact Nat.lt_of_le_of_lt (Nat.min_le_right _ _) (by decide)
        mapNarrow := by
          rw [granulates.isMapNbytes]
          exact narrow _
        idxNarrow := by
          rw [granulates.isIdxNbytes]
          exact narrow _
        isMap := granulates.areNumbers
        numberFits := by
          have bounded : List.Forall₂
              (fun number (column : Column) =>
                number < 256 ^ written.mapNbytes ∧
                  mapdict.items[number]? = some column.msk)
              written.numbers written.granule.columns := by
            refine granulates.areNumbers.imp fun number column isMap => ?_
            have below := (List.getElem?_eq_some_iff.mp isMap).1
            rw [length_items] at below
            rw [granulates.isMapNbytes]
            exact ⟨lt_nbytes below mapFits, isMap⟩
          exact ((List.forall₂_and_left _ _).mp bounded).1
        whole := by
          intro column member
          obtain ⟨symbol, holds, rfl⟩ := ofSymbol column member
          exact holds.counted.trans
            (ones_of_lt holds.masked (Nat.succ_le_of_lt inside)).symm
        changeFits := by
          intro column member encoding isChange
          obtain ⟨symbol, holds, rfl⟩ := ofSymbol column member
          rw [granulates.isIdxNbytes]
          exact lt_nbytes (holds.known encoding isChange) dictFits }
  · rw [granulates.isGranule, List.length_map, length_arrange_order]

/-! ## The end of a section -/

/-- The entries of a chain are written in the order of their numbers. -/
theorem emitChain_emits
    {Item : Type}
    {emitOne : Item → GzStream → Option GzStream}
    {bytes : Item → List UInt8}
    (emits : ∀ item, GzStream.Emits (emitOne item) (bytes item))
    {chain : List (Item × Nat)}
    {idx : Nat}
    (numbered : chain.map Prod.snd = List.range' idx chain.length) :
    GzStream.Emits (Trace.emitChain emitOne idx chain chain.length)
      ((chain.map Prod.fst).flatMap bytes) := by
  induction chain generalizing idx with
  | nil =>
      exact .nil
  | cons entry chain inductionHypothesis =>
      obtain ⟨item, val⟩ := entry
      rw [List.map_cons, List.length_cons, List.range'_succ] at numbered
      obtain ⟨isIdx, others⟩ := List.cons.inj numbered
      have isNumber : ¬ val ≠ idx := fun differ => differ isIdx
      have isStep : Trace.emitChain emitOne idx ((item, val) :: chain)
          ((item, val) :: chain).length =
            fun stream => (emitOne item stream).bind
              (Trace.emitChain emitOne (idx + 1) chain chain.length) := by
        funext stream
        rw [List.length_cons, Trace.emitChain, if_neg isNumber]
      rw [isStep]
      exact (emits item).andThen (inductionHypothesis others)

/-- The items of a dictionary are written in the order of their numbers. -/
theorem emitItems_emits
    {Item : Type}
    [LinearOrder Item]
    {emitOne : Item → GzStream → Option GzStream}
    {bytes : Item → List UInt8}
    (emits : ∀ item, GzStream.Emits (emitOne item) (bytes item))
    (dictionary : Dictionary Item) :
    GzStream.Emits (Trace.emitChain emitOne 0 dictionary.chain dictionary.count)
      (dictionary.items.flatMap bytes) := by
  have sameLength : dictionary.chain.length = dictionary.count := by
    rw [← length_items, Dictionary.items, List.length_map]
  have numbered := dictionary.numbered
  rw [List.range_eq_range', ← sameLength] at numbered
  rw [← sameLength]
  exact emitChain_emits emits numbered

/-- The section ends with its strings and masks, whose dictionaries start anew. -/
theorem finalizeSection_spec (room : trace.zhandle.HasRoom) :
    ∃ stream,
      trace.finalizeSection =
        some { trace with
          dict := .empty
          dictStringMemRequired := 0
          mapdict := .empty
          timegranule := 0
          zhandle := stream
          sections := trace.sections ++
            [{ unclen := stream.contents.length
               firsttime := trace.firsttime
               lasttime := trace.lasttime
               contents := stream.contents }] } ∧
      trace.zhandle.Adds
        (dictBytes trace.dict.items ++
          (trace.mapdict.items.flatMap (bigEndian 8) ++
            trailerBytes trace.dict.items.length trace.dictStringMemRequired
              trace.mapdict.items.length)) stream := by
  have narrow : 4 ≤ 4 := Nat.le_refl 4
  have emitsDict := emitItems_emits
    (fun text : Text => GzStream.emitStringz_emits (textBytes text)) trace.dict
  have emitsMaps := emitItems_emits GzStream.emitU64z_emits trace.mapdict
  obtain ⟨tagged, isTagged, room₁, added₁⟩ :=
    GzStream.emitNumber_emits (Nat.le_add_left 1 3) granSectDict trace.zhandle
      room
  obtain ⟨texts, isTexts, _, added₂⟩ :=
    emitsDict tagged.flushBuffered (GzStream.flushBuffered_hasRoom tagged)
  obtain ⟨masks, isMasks, room₃, added₃⟩ :=
    emitsMaps texts.flushBuffered (GzStream.flushBuffered_hasRoom texts)
  obtain ⟨first, isFirst, room₄, added₄⟩ :=
    GzStream.emitNumber_emits narrow trace.dict.count masks room₃
  obtain ⟨second, isSecond, room₅, added₅⟩ :=
    GzStream.emitNumber_emits narrow trace.dictStringMemRequired first room₄
  obtain ⟨third, isThird, _, added₆⟩ :=
    GzStream.emitNumber_emits narrow trace.mapdict.count second room₅
  refine ⟨third.flushBuffered, ?_, GzStream.flushBuffered_hasRoom third, ?_⟩
  · rw [Trace.finalizeSection]
    simp only [Option.bind_eq_bind, Option.bind_some, isTagged, isTexts, isMasks,
      isFirst, isSecond, isThird]
  · rw [GzStream.contents_flushBuffered, added₆, added₅, added₄, added₃,
      GzStream.contents_flushBuffered, added₂, GzStream.contents_flushBuffered,
      added₁]
    simp only [dictBytes, trailerBytes, length_items, List.append_assoc]

end

end Simbus.Lxt2
