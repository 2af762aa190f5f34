import Simbus.Lxt2.Calls
import Simbus.Timeline
import Mathlib

/-!
# The values that a reader of an LXT2 trace sees

A reader goes through the pages of a file with the columns of a facility, and
gets its values with their times.  The file of a trace has the facilities by
their names, and the values that the symbols have shown.
-/

set_option autoImplicit false

namespace Simbus.Lxt2

open ByteFormat Numbering

/-- The value of a facility before anything is known. -/
def Facility.initial (facility : Facility) : Text :=
  List.replicate facility.len 'x'

/-- The values of the facility at some place, page by page, with their times. -/
def Facility.history
    (facility : Facility)
    (place : Nat) :
    List Page → Text → Option (List (BitVec 64 × Text))
  | [], _ => some []
  | page :: pages, old => do
      let column ← page.granule.columns[place]?
      let values ← replay (facility.read page.strings)
        (positions page.granule.times.length column.msk) column.chg old
      let rest ← facility.history place pages (lastValue old values)
      some (page.granule.times.zip values ++ rest)

/-- What a reader has of a file. -/
structure Waveform where
  facilities : List Facility
  pages : List Page

/-- The value of the facility with some name at some time. -/
def Waveform.value
    (waveform : Waveform)
    (name : Text)
    (time : BitVec 64) : Option Text := do
  let place ← waveform.facilities.findIdx? fun facility => facility.name = name
  let facility ← waveform.facilities[place]?
  let entries ← facility.history place waveform.pages facility.initial
  some (Timeline.valueAt facility.initial entries time)

/-- Read the names and shapes of the facilities. -/
def readFacilities (header : FacHeader) : Option (List Facility) := do
  let (names, _) ← readFacnames header.numfacs [] header.facnames
  let (facilities, _) ← Reader.each (names.map readGeometry) header.geometry
  some facilities

/-- Read the file of a trace. -/
def readFile (trace : Trace) : Option Waveform := do
  let header ← trace.header
  let facilities ← readFacilities header
  let parts ← trace.sections.mapM fun fileSection =>
    readSection header.numfacs fileSection.contents
  some
    { facilities := facilities
      pages := parts.flatMap Section.pages }

/-! ## Histories -/

section

variable {facility : Facility}
variable {place : Nat}
variable {pages pages' : List Page}
variable {old : Text}
variable {entries : List (BitVec 64 × Text)}

/-- The values of a page come with as many times. -/
theorem map_snd_zip_replay
    {read : Encoding → Text → Option Text}
    {times : List (BitVec 64)}
    {msk : Nat}
    {chg : List Encoding}
    {values : List Text}
    (replayed : replay read (positions times.length msk) chg old = some values) :
    (times.zip values).map Prod.snd = values := by
  have sameLength := replay_length replayed
  rw [length_positions] at sameLength
  exact List.map_snd_zip sameLength.le

/-- One page more goes on from the last value. -/
theorem history_concat
    (isHistory : facility.history place pages old = some entries)
    {page : Page}
    {column : Column}
    (isColumn : page.granule.columns[place]? = some column)
    {values : List Text}
    (replayed : replay (facility.read page.strings)
      (positions page.granule.times.length column.msk) column.chg
        (Timeline.last old entries) = some values) :
    facility.history place (pages ++ [page]) old =
      some (entries ++ page.granule.times.zip values) := by
  induction pages generalizing old entries with
  | nil =>
      cases isHistory
      rw [List.nil_append, Facility.history, isColumn]
      simp only [Option.bind_eq_bind, Option.bind_some]
      rw [show replay _ _ _ old = some values from replayed]
      simp only [Option.bind_some, Facility.history, List.append_nil,
        List.nil_append]
  | cons first pages inductionHypothesis =>
      rw [Facility.history] at isHistory
      obtain ⟨firstColumn, isFirst, isPage⟩ := Option.bind_eq_some_iff.mp isHistory
      obtain ⟨firstValues, isValues, isMore⟩ := Option.bind_eq_some_iff.mp isPage
      obtain ⟨rest, isRest, isEntries⟩ := Option.bind_eq_some_iff.mp isMore
      obtain rfl := Option.some.inj isEntries
      have isLast : Timeline.last (lastValue old firstValues) rest =
          Timeline.last old (first.granule.times.zip firstValues ++ rest) := by
        rw [Timeline.last_append]
        congr 1
        exact congrArg (lastValue old) (map_snd_zip_replay isValues).symm
      rw [← isLast] at replayed
      have later := inductionHypothesis isRest replayed
      rw [List.cons_append, Facility.history, isFirst]
      simp only [Option.bind_eq_bind, Option.bind_some, isValues, later,
        List.append_assoc]

/-- A page keeps its granule while its section gets more strings. -/
structure Page.Grows (page page' : Page) : Prop where
  strings : page.strings <+: page'.strings
  granule : page'.granule = page.granule

/-- More strings do not matter to what has been read. -/
theorem history_mono
    (grows : List.Forall₂ Page.Grows pages pages')
    (isHistory : facility.history place pages old = some entries) :
    facility.history place pages' old = some entries := by
  induction grows generalizing old entries with
  | nil =>
      exact isHistory
  | @cons page page' pages pages' growsFirst _ inductionHypothesis =>
      rw [Facility.history] at isHistory
      obtain ⟨column, isColumn, isPage⟩ := Option.bind_eq_some_iff.mp isHistory
      obtain ⟨values, isValues, isMore⟩ := Option.bind_eq_some_iff.mp isPage
      obtain ⟨rest, isRest, isEntries⟩ := Option.bind_eq_some_iff.mp isMore
      have isValues' := replay_mono (read_mono growsFirst.strings) isValues
      rw [Facility.history, growsFirst.granule, isColumn]
      simp only [Option.bind_eq_bind, Option.bind_some, isValues',
        inductionHypothesis isRest]
      exact isEntries

end

/-! ## Facilities by their names -/

namespace Trace

section

variable {trace trace' : Trace}

theorem length_sortedFacilities :
    trace.sortedFacilities.length = trace.symbols.length := by
  rw [sortedFacilities, length_arrange fun _ member => by
    rw [facilities, List.length_map]
    exact order_inside member, order_perm.length_eq, List.length_range]

theorem getElem?_sortedFacilities
    {place handle : Nat}
    (isPlace : trace.order[place]? = some handle) :
    trace.sortedFacilities[place]? = trace.facilities[handle]? := by
  rw [sortedFacilities, getElem?_arrange fun _ member => by
    rw [facilities, List.length_map]
    exact order_inside member, isPlace]
  rfl

theorem arrange_range {α : Type} (items : List α) :
    arrange items (List.range items.length) = items := by
  apply List.ext_getElem?
  intro place
  rw [getElem?_arrange fun _ => List.mem_range.mp]
  by_cases inside : place < items.length
  · rw [List.getElem?_range inside]
    rfl
  · rw [List.getElem?_eq_none (by
      rw [List.length_range]
      exact Nat.not_lt.mp inside), List.getElem?_eq_none (Nat.not_lt.mp inside)]
    rfl

theorem sortedFacilities_perm :
    trace.sortedFacilities.Perm trace.facilities := by
  have arranged := (order_perm : trace.order.Perm _).filterMap
    (trace.facilities[·]?)
  have sameLength : trace.symbols.length = trace.facilities.length :=
    (List.length_map _).symm
  rw [sameLength] at arranged
  exact arranged.trans (.of_eq (arrange_range trace.facilities))

/-- No name is there twice. -/
theorem Holds.sortedNames_nodup (holds : trace.Holds) :
    (trace.sortedFacilities.map Facility.name).Nodup := by
  rw [(sortedFacilities_perm.map Facility.name).nodup_iff, ← names_eq]
  exact holds.distinct

/-- The facilities are in the order of their names. -/
theorem Holds.sortedFacilities_sorted
    (holds : trace.Holds)
    (someSymbols : trace.symbols ≠ []) :
    trace.sortedFacilities.Pairwise fun earlier later =>
      earlier.name < later.name := by
  have someNames : trace.names ≠ [] := by
    intro noNames
    have noLength := congrArg List.length noNames
    rw [length_names] at noLength
    exact someSymbols (List.eq_nil_of_length_eq_zero noLength)
  have ordered := (waveMsort_sorted (waveMsort_eq someNames)).2
  have isName : ∀ {handle facility}, trace.facilities[handle]? = some facility →
      trace.names.getD handle [] = facility.name := by
    intro handle facility isFacility
    rw [names_eq, List.getD_eq_getElem?_getD, List.getElem?_map, isFacility]
    rfl
  have isSorted : trace.sortedFacilities.Pairwise fun earlier later =>
      earlier.name ≤ later.name := by
    rw [sortedFacilities, arrange, List.pairwise_filterMap]
    refine ordered.imp fun atMost earlier isEarlier later isLater => ?_
    rwa [isName isEarlier, isName isLater] at atMost
  have distinct := List.pairwise_map.mp holds.sortedNames_nodup
  exact (isSorted.and distinct).imp fun both => lt_of_le_of_ne both.1 both.2

/-- The facilities are read as they were written. -/
theorem readFacilities_facHeader (holds : trace.Holds) :
    readFacilities trace.facHeader = some trace.sortedFacilities := by
  have cStrings : ∀ name ∈ trace.sortedFacilities.map Facility.name,
      IsCString name := by
    intro name member
    obtain ⟨facility, isFacility, rfl⟩ := List.mem_map.mp member
    obtain ⟨handle, _, isFacility⟩ := List.mem_filterMap.mp isFacility
    apply holds.namesText
    rw [names_eq]
    exact List.mem_map_of_mem (List.mem_of_getElem? isFacility)
  have readsNames := reads_facnames cStrings none
  rw [List.length_map, length_sortedFacilities] at readsNames
  have readsShapes : Reads
      (.each (trace.sortedFacilities.map fun facility =>
        readGeometry facility.name))
      (trace.sortedFacilities.flatMap geometryBytes)
      (trace.sortedFacilities.map id) :=
    .each fun facility _ => reads_geometry facility
  have isNames : readFacnames trace.facHeader.numfacs [] trace.facHeader.facnames =
      some (trace.sortedFacilities.map Facility.name, []) := by
    have reads := readsNames []
    rwa [List.append_nil] at reads
  have isShapes : Reader.each
      ((trace.sortedFacilities.map Facility.name).map readGeometry)
      trace.facHeader.geometry = some (trace.sortedFacilities, []) := by
    have reads := readsShapes []
    rw [List.append_nil, List.map_id] at reads
    rw [List.map_map]
    exact reads
  rw [readFacilities, isNames]
  simp only [Option.bind_eq_bind, Option.bind_some, isShapes]

/--
The header of the file: whatever the calls were, once a value has been recorded it
reads back as the symbols that were added, in the order of their names.
-/
theorem calls_header (calls : List Call) :
    ∃ caller, calls.foldlM Caller.perform .opened = some caller ∧
      (caller.trace.emitted = true → ∃ header facilities,
        caller.trace.header = some header ∧
          readFacilities header = some facilities ∧
          facilities.Perm caller.trace.facilities ∧
          facilities.Pairwise fun earlier later => earlier.name < later.name) := by
  obtain ⟨caller, isCaller, holds⟩ := Caller.calls_hold Caller.opened_holds calls
  refine ⟨caller, isCaller, fun emitted => ?_⟩
  obtain ⟨someSymbols, _, isHeader⟩ := holds.trace.written emitted
  exact ⟨caller.trace.facHeader, caller.trace.sortedFacilities, isHeader,
    readFacilities_facHeader holds.trace, sortedFacilities_perm,
    holds.trace.sortedFacilities_sorted someSymbols⟩

/-- Two symbols are written behind the first value, whatever their order was. -/
theorem calls_header_two :
    ∃ (calls : List Call) (caller : Caller) (header : FacHeader)
        (facilities : List Facility),
      calls.foldlM Caller.perform .opened = some caller ∧
        caller.trace.facilities.map (·.name) = [['b'], ['a']] ∧
        caller.trace.emitted = true ∧ caller.trace.header = some header ∧
        readFacilities header = some facilities ∧
        facilities.Perm caller.trace.facilities ∧
        facilities.Pairwise fun earlier later => earlier.name < later.name := by
  let later : CString := ⟨['b'], by decide⟩
  let earlier : CString := ⟨['a'], by decide⟩
  let value : CString := ⟨['1'], by decide⟩
  let calls : List Call :=
    [.symbolAdd later 0 0 0 .bits (bit_inRange later),
      .symbolAdd earlier 0 0 0 .bits (bit_inRange earlier),
      .emitValue .bits 0 value]
  have written : (calls.foldlM Caller.perform .opened).any (fun caller =>
      caller.trace.emitted &&
        caller.trace.facilities.map (·.name) == [['b'], ['a']]) = true := by
    decide
  obtain ⟨caller, isCaller, readsBack⟩ := calls_header calls
  rw [isCaller] at written
  obtain ⟨isEmitted, isFacilities⟩ := Bool.and_eq_true_iff.mp written
  obtain ⟨header, facilities, isHeader, isRead, all, sorted⟩ := readsBack isEmitted
  exact ⟨calls, caller, header, facilities, isCaller, beq_iff_eq.mp isFacilities,
    isEmitted, isHeader, isRead, all, sorted⟩

end

/-! ## What the symbols have shown -/

/--
The values that a symbol has had before the present position, as the pages and
its changes say.
-/
structure Plays
    (trace : Trace)
    (pages : List Page)
    (handle : Nat)
    (entries : List (BitVec 64 × Text)) : Prop where
  plays : ∃ place symbol written front,
    trace.order[place]? = some handle ∧
      trace.symbols[handle]? = some symbol ∧
      symbol.facility.history place pages symbol.facility.initial = some written ∧
      symbol.Shows trace.dict.items trace.timepos
        (Timeline.last symbol.facility.initial written) front ∧
      entries = written ++ (trace.timetable.toList.take trace.timepos).zip front

section

variable {trace trace' : Trace}
variable {pages pages' : List Page}
variable {handle : Nat}
variable {entries : List (BitVec 64 × Text)}
variable {past : List Section}
variable {done : List WrittenGranule}

/-- Every symbol has a place in the order of the names. -/
theorem exists_place
    {symbol : Symbol}
    (isSymbol : trace.symbols[handle]? = some symbol) :
    ∃ place : Nat, trace.order[place]? = some handle := by
  have member : handle ∈ trace.order :=
    order_all (List.getElem?_eq_some_iff.mp isSymbol).1
  exact List.mem_iff_getElem?.mp member

/-- Before anything is recorded a symbol has shown nothing. -/
theorem Fresh.plays
    (fresh : trace.Fresh)
    {symbol : Symbol}
    (isSymbol : trace.symbols[handle]? = some symbol) :
    trace.Plays [] handle [] := by
  obtain ⟨place, isPlace⟩ := exists_place isSymbol
  have isAdded := fresh.added symbol (List.mem_of_getElem? isSymbol)
  have isFirst := (later_eq_false_iff.mp fresh.first).1
  refine ⟨place, symbol, [], [], isPlace, isSymbol, rfl, ?_, ?_⟩
  · rw [isFirst, isAdded]
    exact Symbol.added_shows _ _ _
  · rw [List.zip_nil_right]
    rfl

/-- Values that are recorded at the present position do not matter before it. -/
theorem Plays.keeps
    (plays : trace.Plays pages handle entries)
    (keeps : trace.Keeps trace')
    (grows : List.Forall₂ Page.Grows pages pages') :
    trace'.Plays pages' handle entries := by
  obtain ⟨place, symbol, written, front, isPlace, isSymbol, isHistory, shows_,
    isEntries⟩ := plays.plays
  obtain ⟨symbol', isSymbol', shows'⟩ :=
    keeps.shows_ handle _ _ ⟨symbol, isSymbol, shows_⟩
  have sameFacility : symbol'.facility = symbol.facility := by
    have same := congrArg (·[handle]?) keeps.facilities
    simp only [facilities, List.getElem?_map, isSymbol, isSymbol',
      Option.map_some] at same
    exact Option.some.inj same
  refine ⟨place, symbol', written, front, ?_, isSymbol', ?_, ?_, ?_⟩
  · rw [order_congr keeps.facilities]
    exact isPlace
  · rw [sameFacility]
    exact history_mono grows isHistory
  · rw [sameFacility]
    exact shows'
  · rw [keeps.frame]
    exact isEntries

/-- The time of the present position does not matter before it. -/
theorem Plays.stamp
    (plays : trace.Plays pages handle entries)
    (maxtime firsttime lasttime timeval : BitVec 64)
    (timeset granuleDirty : Bool) :
    Plays
      { trace with
        maxtime := maxtime
        firsttime := firsttime
        lasttime := lasttime
        timetable := trace.timetable.setIfInBounds trace.timepos timeval
        timeset := timeset
        granuleDirty := granuleDirty }
      pages handle entries := by
  obtain ⟨place, symbol, written, front, isPlace, isSymbol, isHistory, shows_,
    isEntries⟩ := plays.plays
  refine ⟨place, symbol, written, front, isPlace, isSymbol, isHistory, shows_, ?_⟩
  have sameTimes :
      (trace.timetable.setIfInBounds trace.timepos timeval).toList.take
          trace.timepos =
        trace.timetable.toList.take trace.timepos := by
    rw [Vector.toList_setIfInBounds, List.take_set_of_le (Nat.le_refl _)]
  rw [isEntries, ← sameTimes]

/-- The times up to the present one. -/
theorem take_timepos
    {time : BitVec 64}
    (isNow : trace.timetable[trace.timepos]? = some time) :
    trace.timetable.toList.take (trace.timepos + 1) =
      trace.timetable.toList.take trace.timepos ++ [time] := by
  have isTime : trace.timetable.toList[trace.timepos]? = some time := by
    rw [← isNow, Vector.getElem?_toList]
  rw [List.take_add_one, isTime]
  rfl

/-- The times and values up to the present one. -/
theorem zip_times
    {time : BitVec 64}
    (isNow : trace.timetable[trace.timepos]? = some time)
    {front : List Text}
    (sameLength : front.length = trace.timepos)
    (inside : trace.timepos < granuleSize)
    (value : Text) :
    (trace.timetable.toList.take (trace.timepos + 1)).zip (front ++ [value]) =
      (trace.timetable.toList.take trace.timepos).zip front ++ [(time, value)] := by
  have lengths : (trace.timetable.toList.take trace.timepos).length =
      front.length := by
    rw [List.length_take, Vector.length_toList, sameLength]
    exact Nat.min_eq_left inside.le
  rw [take_timepos isNow, List.zip_append lengths]
  rfl

/-- A position that is complete is one that the symbol has shown. -/
theorem Plays.advances
    (plays : trace.Plays pages handle entries)
    (holds : trace.Holds)
    {time : BitVec 64}
    (isNow : trace.timetable[trace.timepos]? = some time)
    {value : Text}
    (isValue : trace.valueAt handle = some value)
    (bumptime flushValid : Bool) :
    Plays
      { trace with
        bumptime := bumptime
        timepos := trace.timepos + 1
        flushValid := flushValid }
      pages handle (entries ++ [(time, value)]) := by
  obtain ⟨place, symbol, written, front, isPlace, isSymbol, isHistory, shows_,
    rfl⟩ := plays.plays
  have symbolHolds := holds.symbols symbol (List.mem_of_getElem? isSymbol)
  rw [valueAt, isSymbol] at isValue
  obtain rfl := Option.some.inj isValue
  refine ⟨place, symbol, written, front ++ [symbol.value], isPlace, isSymbol,
    isHistory, shows_.next symbolHolds, ?_⟩
  rw [zip_times isNow shows_.length holds.position, List.append_assoc]

/-- A granule that is complete becomes a page. -/
theorem Plays.flushed
    (plays : trace.Plays pages handle entries)
    (holds : trace.Holds)
    {bumptime flushValid doFinalize : Bool}
    {written : WrittenGranule}
    {mapdict : Dictionary Nat}
    (flushed : Flushed
      { trace with
        bumptime := bumptime
        timepos := trace.timepos + 1
        flushValid := flushValid }
      doFinalize written mapdict trace')
    {time : BitVec 64}
    (isNow : trace.timetable[trace.timepos]? = some time)
    {value : Text}
    (isValue : trace.valueAt handle = some value) :
    trace'.Plays (pages ++ [⟨trace.dict.items, written.granule⟩]) handle
      (entries ++ [(time, value)]) := by
  obtain ⟨place, symbol, before, front, isPlace, isSymbol, isHistory, shows_,
    rfl⟩ := plays.plays
  rw [valueAt, isSymbol] at isValue
  obtain rfl := Option.some.inj isValue
  have isTimes : written.granule.times =
      trace.timetable.toList.take (trace.timepos + 1) := by
    rw [flushed.granulates.isGranule]
  have lengthTimes : written.granule.times.length = trace.timepos + 1 := by
    rw [isTimes, List.length_take, Vector.length_toList]
    exact Nat.min_eq_left (Nat.succ_le_of_lt holds.position)
  have isColumn : written.granule.columns[place]? = some symbol.column := by
    rw [flushed.granulates.isGranule, List.getElem?_map,
      getElem?_arrange fun _ => order_inside]
    change (trace.order[place]?.bind (trace.symbols[·]?)).map _ = _
    rw [isPlace, Option.bind_some, isSymbol]
    rfl
  have replayed := shows_.all
  rw [← lengthTimes] at replayed
  have isHistory' := @history_concat symbol.facility place pages
    symbol.facility.initial _ isHistory ⟨trace.dict.items, written.granule⟩
    symbol.column isColumn _ replayed
  rw [isTimes, zip_times isNow shows_.length holds.position,
    ← List.append_assoc] at isHistory'
  refine ⟨place, symbol.cleared, _, [], ?_, ?_, isHistory', ?_, ?_⟩
  · rw [order_congr flushed.facilities_eq]
    exact isPlace
  · rw [flushed.frame]
    change (trace.symbols.map Symbol.cleared)[handle]? = _
    rw [List.getElem?_map, isSymbol]
    rfl
  · rw [flushed.frame, Timeline.last_concat]
    exact symbol.cleared_shows _
  · rw [List.zip_nil_right, List.append_nil]

/-! ## The file -/

/-- A reader finds a facility by its name and gets what its symbol has shown. -/
theorem Plays.waveform_value
    (plays : trace.Plays pages handle entries)
    (holds : trace.Holds)
    (isFirst : trace.timepos = 0)
    {facility : Facility}
    (isFacility : trace.facilities[handle]? = some facility)
    (time : BitVec 64) :
    Waveform.value ⟨trace.sortedFacilities, pages⟩ facility.name time =
      some (Timeline.valueAt facility.initial entries time) := by
  obtain ⟨place, symbol, written, front, isPlace, isSymbol, isHistory, _,
    rfl⟩ := plays.plays
  have isShape := getElem?_sortedFacilities isPlace
  rw [isFacility] at isShape
  rw [facilities, List.getElem?_map, isSymbol] at isFacility
  obtain rfl := Option.some.inj isFacility
  have isIndex : (trace.sortedFacilities.findIdx? fun facility =>
      facility.name = symbol.facility.name) = some place := by
    obtain ⟨inside, isThere⟩ := List.getElem?_eq_some_iff.mp isShape
    rw [List.findIdx?_eq_some_iff_getElem]
    refine ⟨inside, decide_eq_true (congrArg Facility.name isThere), ?_⟩
    intro other before sameName
    have distinct := List.pairwise_iff_getElem.mp holds.sortedNames_nodup other
      place (by
        rw [List.length_map]
        exact before.trans inside) (by rwa [List.length_map]) before
    rw [List.getElem_map, List.getElem_map, isThere] at distinct
    exact distinct (of_decide_eq_true sameName)
  rw [Waveform.value]
  simp only [Option.bind_eq_bind, isIndex, Option.bind_some, isShape, isHistory]
  rw [isFirst, List.take_zero, List.zip_nil_left, List.append_nil]

end

end Trace

end Simbus.Lxt2
