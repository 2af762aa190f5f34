import Simbus.Lxt2.Waveform
import Mathlib

/-!
# A trace is played back as it was given

A log keeps the time and the values that the caller of a writer has given.  The
pages of the trace, the changes of its symbols and their present values follow
the log, through every call and every granule that is written on the way.
-/

set_option autoImplicit false

namespace Simbus.Lxt2

open ByteFormat Numbering

/-- A value that has been given to a symbol, and when. -/
structure Given where
  time : BitVec 64
  handle : Nat
  kind : Kind
  value : Text

/-- What counts for the symbol of a facility; a value of the other kind does not. -/
def Given.entry
    (handle : Nat)
    (facility : Facility)
    (given : Given) : Option (BitVec 64 × Text) :=
  if given.handle = handle ∧ given.kind = facility.kind then
    some (given.time, facility.normal given.value)
  else
    none

/-- What a caller has given so far; `period` has the bits since the time was set. -/
structure Log where
  time : BitVec 64
  period : List (Nat × Text)
  given : List Given

namespace Log

/-- Nothing has been given. -/
def empty : Log where
  time := 0
  period := []
  given := []

/-- The time goes on. -/
def setTime (log : Log) (time : BitVec 64) : Log :=
  { log with
    time := time
    period := [] }

/-- A symbol is given a value. -/
def give (log : Log) (kind : Kind) (handle : Nat) (value : Text) : Log where
  time := log.time
  period :=
    match kind with
    | .bits => log.period ++ [(handle, value)]
    | .string => log.period
  given := log.given ++ [⟨log.time, handle, kind, value⟩]

/-- The values of a facility with their times. -/
def values
    (log : Log)
    (handle : Nat)
    (facility : Facility) : List (BitVec 64 × Text) :=
  log.given.filterMap (Given.entry handle facility)

theorem values_give
    (log : Log)
    (kind : Kind)
    (handle : Nat)
    (value : Text)
    (other : Nat)
    (facility : Facility) :
    (log.give kind handle value).values other facility =
      log.values other facility ++
        if handle = other ∧ kind = facility.kind then
          [(log.time, facility.normal value)]
        else
          [] := by
  rw [values]
  change (log.given ++ [_]).filterMap _ = _
  rw [List.filterMap_append]
  congr 1
  by_cases isOwn : handle = other ∧ kind = facility.kind
  · rw [if_pos isOwn]
    exact List.filterMap_cons_some (if_pos isOwn)
  · rw [if_neg isOwn]
    exact List.filterMap_cons_none (if_neg isOwn)

theorem mem_period_give
    {log : Log}
    {entry : Nat × Text}
    (member : entry ∈ log.period)
    (kind : Kind)
    (handle : Nat)
    (value : Text) :
    entry ∈ (log.give kind handle value).period := by
  cases kind with
  | bits =>
      exact List.mem_append_left _ member
  | string =>
      exact member

end Log

namespace Trace

/-! ## Times -/

/-- The times of a trace are those of the log. -/
structure OnTime (trace : Trace) (log : Log) : Prop where
  unflushed : trace.flushValid = false
  granules : trace.maxgranule = granuleNum
  now : trace.timetable[trace.timepos]? = some log.time
  reached : trace.timeset = true → trace.maxtime ≤ log.time
  passed : trace.later = true → trace.maxtime < log.time
  unset : trace.timeset = false →
    log = .empty ∧ trace.later = false ∧ trace.bumptime = false

/-! ## Values -/

/--
A symbol has had the values of the log up to now; only the present one may still
become another.
-/
structure Agrees
    (trace : Trace)
    (pages : List Page)
    (log : Log)
    (handle : Nat)
    (facility : Facility) : Prop where
  agrees : ∃ entries value, trace.Plays pages handle entries ∧
    trace.valueAt handle = some value ∧
    (∀ entry ∈ entries, entry.1 ≤ log.time) ∧
    (trace.bumptime = false → value = Timeline.last facility.initial entries) ∧
    Timeline.valueAt facility.initial (entries ++ [(log.time, value)]) =
      Timeline.valueAt facility.initial (log.values handle facility)

/-- The pages that can be read and the symbols agree with the log. -/
def Shown (trace : Trace) (log : Log) : Prop :=
  ∃ past done, trace.Recorded past done ∧
    ∀ handle facility, trace.facilities[handle]? = some facility →
      trace.Agrees (trace.pages past done) log handle facility

/-- What holds of a trace and its log behind so many calls. -/
structure Follows (trace : Trace) (calls : Nat) (log : Log) : Prop where
  holds : trace.Holds
  onTime : trace.OnTime log
  masks : trace.mapdict.count ≤ trace.timegranule * trace.symbols.length
  stores : ∃ sources : List Text, sources.length ≤ calls ∧
    (∀ text ∈ trace.dict.items, text ∈ sources) ∧
    ∀ text ∈ trace.storedTexts, text ∈ sources
  marked : ∀ handle symbol, trace.symbols[handle]? = some symbol →
    symbol.facility.kind = .bits → trace.later = true →
    symbol.msk.testBit trace.timepos = true →
    ∃ value, (handle, value) ∈ log.period ∧
      symbol.facility.normal value = symbol.value
  known : ∀ given ∈ log.given, given.handle < trace.symbols.length
  shown : trace.Shown log

section

variable {trace trace' : Trace}
variable {log : Log}
variable {calls : Nat}
variable {past : List Section}
variable {done : List WrittenGranule}

/-- All texts are different, so there are at most as many as calls. -/
theorem Follows.entries_le (follows : trace.Follows calls log) :
    trace.dict.count ≤ calls := by
  obtain ⟨sources, atMost, inSources, _⟩ := follows.stores
  rw [← length_items]
  exact ((List.subperm_of_subset (nodup_items trace.dict)
    fun text member => inSources text member).length_le).trans atMost

theorem Follows.more
    (follows : trace.Follows calls log)
    {calls' : Nat}
    (more : calls ≤ calls') :
    trace.Follows calls' log :=
  { follows with
    stores := by
      obtain ⟨sources, atMost, inSources⟩ := follows.stores
      exact ⟨sources, atMost.trans more, inSources⟩ }

/-! ## Additions -/

/-- Before the first value all symbols have their initial values. -/
theorem Fresh.shown
    (fresh : trace.Fresh)
    (noValues : log.given = []) :
    trace.Shown log := by
  have isFirst := later_eq_false_iff.mp fresh.first
  refine ⟨[], [], ⟨?_, ?_, ?_, fun _ => rfl⟩, ?_⟩
  · rw [fresh.noSections]
    rfl
  · rw [pending, if_pos isFirst.2]
    rfl
  · exact fun _ member => absurd member List.not_mem_nil
  · intro handle facility isFacility
    rw [facilities, List.getElem?_map, Option.map_eq_some_iff] at isFacility
    obtain ⟨symbol, isSymbol, rfl⟩ := isFacility
    have isAdded := fresh.added symbol (List.mem_of_getElem? isSymbol)
    have isInitial : symbol.value = symbol.facility.initial := by
      rw [isAdded]
      rfl
    refine ⟨[], symbol.value, fresh.plays isSymbol, ?_, ?_, ?_, ?_⟩
    · rw [valueAt, isSymbol]
      rfl
    · exact fun _ member => absurd member List.not_mem_nil
    · exact fun _ => isInitial
    · have noneGiven : log.values handle symbol.facility = [] := by
        rw [Log.values, noValues]
        rfl
      rw [noneGiven, isInitial]
      exact Timeline.valueAt_again fun _ member => absurd member List.not_mem_nil

/-! ## Values at the present position -/

theorem Recorded.keeps
    (recorded : trace.Recorded past done)
    (keeps : trace.Keeps trace') :
    trace'.Recorded past done := by
  have sameLength := keeps.length
  have isFrame := keeps.frame
  refine ⟨?_, ?_, ?_, ?_⟩
  · rw [sameLength, isFrame]
    exact recorded.past
  · rw [isFrame]
    exact recorded.pending
  · rw [sameLength, isFrame]
    exact recorded.legible
  · rw [isFrame]
    exact recorded.atStart

theorem pages_grow
    (keeps : trace.Keeps trace')
    (past : List Section)
    (done : List WrittenGranule) :
    List.Forall₂ Page.Grows (trace.pages past done) (trace'.pages past done) := by
  rw [pages, pages]
  apply List.rel_append
  · exact List.forall₂_same.mpr fun page _ => ⟨List.prefix_rfl, rfl⟩
  · rw [List.forall₂_map_left_iff, List.forall₂_map_right_iff]
    exact List.forall₂_same.mpr fun written _ => ⟨keeps.grows, rfl⟩

theorem OnTime.keeps
    (onTime : trace.OnTime log)
    (isSet : trace.timeset = true)
    (keeps : trace.Keeps trace') :
    trace'.OnTime log := by
  rw [keeps.frame]
  exact
    { unflushed := onTime.unflushed
      granules := onTime.granules
      now := onTime.now
      reached := onTime.reached
      passed := onTime.passed
      unset := fun notSet => absurd (notSet.symm.trans isSet) Bool.false_ne_true }

theorem still_of_keeps
    (keeps : trace.Keeps trace')
    (still : trace'.bumptime = false) :
    trace.bumptime = false := by
  cases isBumped : trace.bumptime with
  | false =>
      rfl
  | true =>
      exact absurd (still.symm.trans (keeps.bumped isBumped)) Bool.false_ne_true

/-- All values that come again agree with the log as before. -/
theorem Follows.repeats
    (follows : trace.Follows calls log)
    (isSet : trace.timeset = true)
    (first : trace.later = false)
    (repeats : trace.Repeats trace') :
    trace'.Follows calls log := by
  have keeps := repeats.keeps
  refine
    { holds := repeats.holds
      onTime := follows.onTime.keeps isSet keeps
      masks := ?_
      stores := ?_
      marked := ?_
      known := ?_
      shown := ?_ }
  · rw [keeps.length, keeps.frame]
    exact follows.masks
  · obtain ⟨sources, atMost, inSources, valuesIn⟩ := follows.stores
    refine ⟨sources, atMost, fun text member => ?_, ?_⟩
    · rcases repeats.stores text member with isOld | isStored
      · exact inSources text isOld
      · exact valuesIn text isStored
    · rw [storedTexts_congr keeps.facilities repeats.values]
      exact valuesIn
  · intro _ _ _ _ isLater
    rw [keeps.later, first] at isLater
    cases isLater
  · rw [keeps.length]
    exact follows.known
  · obtain ⟨past, done, recorded, agrees⟩ := follows.shown
    refine ⟨past, done, recorded.keeps keeps, fun handle facility isFacility => ?_⟩
    rw [keeps.facilities] at isFacility
    obtain ⟨entries, value, plays, isValue, earlier, still, same⟩ :=
      (agrees handle facility isFacility).agrees
    exact ⟨entries, value, plays.keeps keeps (pages_grow keeps past done),
      (congrFun repeats.values handle).trans isValue, earlier,
      fun isStill => still (still_of_keeps keeps isStill), same⟩

/-- A value that is given becomes the present value of its symbol. -/
theorem Follows.sets
    (follows : trace.Follows calls log)
    (isSet : trace.timeset = true)
    {handle : Nat}
    {symbol : Symbol}
    {value : Text}
    (isSymbol : trace.symbols[handle]? = some symbol)
    (sets : trace.Sets handle symbol (symbol.facility.normal value) trace') :
    trace'.Follows (calls + 1) (log.give symbol.facility.kind handle value) := by
  have keeps := sets.keeps
  have onTime := follows.onTime.keeps isSet keeps
  have isOwn : ∀ symbol', trace'.symbols[handle]? = some symbol' →
      symbol'.facility = symbol.facility ∧
        symbol'.value = symbol.facility.normal value := by
    intro symbol' isSymbol'
    have sameFacility := congrArg (·[handle]?) keeps.facilities
    have isValue := congrFun sets.values handle
    simp only [facilities, List.getElem?_map, isSymbol, isSymbol',
      Option.map_some] at sameFacility
    rw [valueAt, isSymbol', Function.update_self] at isValue
    exact ⟨Option.some.inj sameFacility, Option.some.inj isValue⟩
  have inside : handle < trace.symbols.length :=
    (List.getElem?_eq_some_iff.mp isSymbol).1
  have isFacility : trace.facilities[handle]? = some symbol.facility := by
    rw [facilities, List.getElem?_map, isSymbol]
    rfl
  refine
    { holds := sets.holds
      onTime := ⟨onTime.unflushed, onTime.granules, onTime.now, onTime.reached,
        onTime.passed, fun notSet => absurd (notSet.symm.trans (congrArg
          Trace.timeset keeps.frame)) (isSet ▸ Bool.false_ne_true)⟩
      masks := ?_
      stores := ?_
      marked := ?_
      known := ?_
      shown := ?_ }
  · rw [keeps.length, keeps.frame]
    exact follows.masks
  · obtain ⟨sources, atMost, inSources, valuesIn⟩ := follows.stores
    refine ⟨symbol.facility.stored (symbol.facility.normal value) :: sources,
      Nat.succ_le_succ atMost, fun text member => ?_, fun text member => ?_⟩
    · rcases sets.stores text member with isOld | rfl
      · exact List.mem_cons_of_mem _ (inSources text isOld)
      · exact List.mem_cons_self
    · obtain ⟨symbol', isMember, rfl⟩ := List.mem_map.mp member
      obtain ⟨other, isSymbol'⟩ := List.mem_iff_getElem?.mp isMember
      by_cases same : other = handle
      · subst same
        obtain ⟨sameFacility, isValue⟩ := isOwn symbol' isSymbol'
        rw [sameFacility, isValue]
        exact List.mem_cons_self
      · rw [sets.others other same] at isSymbol'
        exact List.mem_cons_of_mem _ (valuesIn _ (mem_storedTexts isSymbol'))
  · intro other symbol' isSymbol' isBits isLater isMarked
    by_cases same : other = handle
    · subst same
      obtain ⟨sameFacility, isValue⟩ := isOwn symbol' isSymbol'
      refine ⟨value, ?_, ?_⟩
      · rw [sameFacility] at isBits
        rw [isBits]
        exact List.mem_append_right _ List.mem_cons_self
      · rw [sameFacility, isValue]
    · rw [sets.others other same] at isSymbol'
      rw [keeps.later] at isLater
      rw [keeps.timepos] at isMarked
      obtain ⟨earlier, isGiven, isValue⟩ :=
        follows.marked other symbol' isSymbol' isBits isLater isMarked
      exact ⟨earlier, Log.mem_period_give isGiven _ _ _, isValue⟩
  · rw [keeps.length]
    intro given member
    rcases List.mem_append.mp member with isOld | isNew
    · exact follows.known given isOld
    · rw [List.mem_singleton.mp isNew]
      exact inside
  · obtain ⟨past, done, recorded, agrees⟩ := follows.shown
    refine ⟨past, done, recorded.keeps keeps, fun other facility isOther => ?_⟩
    rw [keeps.facilities] at isOther
    obtain ⟨entries, old, plays, isOld, earlier, still, same⟩ :=
      (agrees other facility isOther).agrees
    have plays' := plays.keeps keeps (pages_grow keeps past done)
    by_cases isOwn : other = handle
    · subst isOwn
      rw [isFacility] at isOther
      obtain rfl := Option.some.inj isOther
      have isValue : trace'.valueAt other = some (symbol.facility.normal value) := by
        rw [sets.values, Function.update_self]
      refine ⟨entries, _, plays', isValue, earlier, fun isStill => ?_, ?_⟩
      · have sameValues := sets.bumps.resolve_right fun isBumped =>
          absurd (isStill.symm.trans isBumped) Bool.false_ne_true
        rw [sameValues, isOld] at isValue
        rw [← Option.some.inj isValue]
        exact still (still_of_keeps keeps isStill)
      · rw [Log.values_give, if_pos ⟨rfl, rfl⟩]
        exact Timeline.valueAt_concat_congr same _
    · refine ⟨entries, old, plays', ?_, earlier,
        fun isStill => still (still_of_keeps keeps isStill), ?_⟩
      · rw [sets.values, Function.update_of_ne isOwn]
        exact isOld
      · rw [Log.values_give, if_neg fun own => isOwn own.1.symm, List.append_nil]
        exact same

/-! ## The next time -/

/-- A symbol has had the values of the log, and its present one has come before. -/
structure Settled
    (trace : Trace)
    (pages : List Page)
    (log : Log)
    (handle : Nat)
    (facility : Facility) : Prop where
  settled : ∃ entries, trace.Plays pages handle entries ∧
    trace.valueAt handle = some (Timeline.last facility.initial entries) ∧
    (∀ entry ∈ entries, entry.1 ≤ log.time) ∧
    Timeline.valueAt facility.initial entries =
      Timeline.valueAt facility.initial (log.values handle facility)

/-- What holds when the present position is free for another time. -/
structure Rests (trace : Trace) (calls : Nat) (log : Log) : Prop where
  holds : trace.Holds
  unflushed : trace.flushValid = false
  granules : trace.maxgranule = granuleNum
  masks : trace.mapdict.count ≤ trace.timegranule * trace.symbols.length
  stores : ∃ sources : List Text, sources.length ≤ calls ∧
    (∀ text ∈ trace.dict.items, text ∈ sources) ∧
    ∀ text ∈ trace.storedTexts, text ∈ sources
  free : trace.later = true → ∀ symbol ∈ trace.symbols,
    symbol.msk.testBit trace.timepos = false
  known : ∀ given ∈ log.given, given.handle < trace.symbols.length
  settled : ∃ past done, trace.Recorded past done ∧
    ∀ handle facility, trace.facilities[handle]? = some facility →
      trace.Settled (trace.pages past done) log handle facility

/-- Values that nothing has changed can be given another time. -/
theorem Follows.rests
    (follows : trace.Follows calls log)
    (still : trace.bumptime = false) :
    trace.Rests calls log where
  holds := follows.holds
  unflushed := follows.onTime.unflushed
  granules := follows.onTime.granules
  masks := follows.masks
  stores := follows.stores
  free := follows.holds.free still
  known := follows.known
  settled := by
    obtain ⟨past, done, recorded, agrees⟩ := follows.shown
    refine ⟨past, done, recorded, fun handle facility isFacility => ?_⟩
    obtain ⟨entries, value, plays, isValue, earlier, isLast, same⟩ :=
      (agrees handle facility isFacility).agrees
    obtain rfl := isLast still
    rw [Timeline.valueAt_again earlier] at same
    exact ⟨entries, plays, isValue, earlier, same⟩

/-- A present value that goes before the next time. -/
theorem Agrees.settles
    {pages pages' : List Page}
    {handle : Nat}
    {facility : Facility}
    (agrees : trace.Agrees pages log handle facility)
    (sameValues : trace'.valueAt = trace.valueAt)
    (next : ∀ entries value, trace.Plays pages handle entries →
      trace.valueAt handle = some value →
      trace'.Plays pages' handle (entries ++ [(log.time, value)])) :
    trace'.Settled pages' log handle facility := by
  obtain ⟨entries, value, plays, isValue, earlier, _, same⟩ := agrees.agrees
  refine ⟨entries ++ [(log.time, value)], next entries value plays isValue, ?_, ?_,
    same⟩
  · rw [sameValues, isValue, Timeline.last_concat]
  · intro entry member
    rcases List.mem_append.mp member with isOld | isNew
    · exact earlier entry isOld
    · rw [List.mem_singleton.mp isNew]
      exact Std.IsPreorder.le_refl _

/-- The numbers of strings and masks stay within four bytes. -/
structure Fits (trace : Trace) (calls : Nat) : Prop where
  texts : calls + dictStart ≤ 256 ^ 4
  symbols : trace.symbols.length < 256 ^ 3

theorem Follows.dictFits
    (follows : trace.Follows calls log)
    (fits : trace.Fits calls) :
    trace.dict.count + dictStart ≤ 256 ^ 4 :=
  (Nat.add_le_add_right follows.entries_le _).trans fits.texts

theorem Follows.mapFits
    (follows : trace.Follows calls log)
    (fits : trace.Fits calls) :
    trace.mapdict.count + trace.symbols.length < 256 ^ 4 := by
  have few := follows.holds.granule
  rw [follows.onTime.granules] at few
  have bounded : trace.mapdict.count + trace.symbols.length ≤
      granuleNum * trace.symbols.length := by
    calc trace.mapdict.count + trace.symbols.length
      _ ≤ trace.timegranule * trace.symbols.length + trace.symbols.length :=
        Nat.add_le_add_right follows.masks _
      _ = (trace.timegranule + 1) * trace.symbols.length := by
        rw [Nat.add_mul, Nat.one_mul]
      _ ≤ granuleNum * trace.symbols.length := Nat.mul_le_mul_right _ few
  refine Nat.lt_of_le_of_lt bounded ?_
  exact (Nat.mul_lt_mul_left (by decide)).mpr fits.symbols

/-- A granule that is flushed settles all values. -/
theorem Follows.flushed
    (follows : trace.Follows calls log)
    (fits : trace.Fits calls)
    {bumptime flushValid doFinalize : Bool}
    {written : WrittenGranule}
    {mapdict : Dictionary Nat}
    (flushed : Flushed
      { trace with
        bumptime := bumptime
        timepos := trace.timepos + 1
        flushValid := flushValid }
      doFinalize written mapdict trace') :
    ∃ past done, trace'.Recorded past done ∧
      ∀ handle facility, trace'.facilities[handle]? = some facility →
        trace'.Settled (trace'.pages past done) log handle facility := by
  obtain ⟨past, done, recorded, agrees⟩ := follows.shown
  obtain ⟨past', done', recorded', isPages⟩ := flushed.recorded follows.holds
    (follows.dictFits fits) (follows.mapFits fits) recorded
  refine ⟨past', done', recorded', fun handle facility isFacility => ?_⟩
  rw [flushed.facilities_eq] at isFacility
  rw [isPages]
  refine (agrees handle facility isFacility).settles flushed.valueAt_eq ?_
  intro entries value plays isValue
  exact plays.flushed follows.holds flushed follows.onTime.now isValue

theorem Follows.bumped
    (follows : trace.Follows calls log)
    (fits : trace.Fits calls)
    (bumped : Bumped trace trace') :
    trace'.Rests calls log := by
  have holds' := bumped.holds follows.holds
  cases bumped with
  | stays still =>
      exact follows.rests still
  | resumes isFlushed =>
      exact absurd (follows.onTime.unflushed.symm.trans isFlushed)
        Bool.false_ne_true
  | advances isEmitted inside =>
      refine
        { holds := holds'
          unflushed := rfl
          granules := follows.onTime.granules
          masks := follows.masks
          stores := follows.stores
          free := fun _ symbol member =>
            Nat.testBit_lt_two_pow (follows.holds.symbols symbol member).masked
          known := follows.known
          settled := ?_ }
      obtain ⟨past, done, recorded, agrees⟩ := follows.shown
      refine ⟨past, done, ⟨recorded.past, recorded.pending, recorded.legible,
        recorded.atStart⟩, fun handle facility isFacility => ?_⟩
      refine (agrees handle facility isFacility).settles rfl ?_
      intro entries value plays isValue
      exact plays.advances follows.holds follows.onTime.now isValue _ _
  | fills isEmitted flushed =>
      have settled := follows.flushed fits flushed
      have sameLength : trace'.symbols.length = trace.symbols.length :=
        flushed.length_eq
      have sameTexts : trace'.storedTexts = trace.storedTexts :=
        storedTexts_congr flushed.facilities_eq flushed.valueAt_eq
      refine
        { holds := holds'
          unflushed := congrArg Trace.flushValid flushed.frame
          granules := (congrArg Trace.maxgranule flushed.frame).trans
            follows.onTime.granules
          masks := ?_
          stores := ?_
          free := ?_
          known := sameLength ▸ follows.known
          settled := settled }
      · rw [sameLength]
        rcases flushed.next with ⟨goesOn, _⟩ | ends
        · rw [goesOn.isMapdict, goesOn.counted, Nat.add_mul, Nat.one_mul]
          exact flushed.granulates.atMost.trans
            (Nat.add_le_add_right follows.masks _)
        · rw [ends.noMapdict]
          exact Nat.zero_le _
      · obtain ⟨sources, atMost, inSources, valuesIn⟩ := follows.stores
        refine ⟨sources, atMost, ?_, sameTexts ▸ valuesIn⟩
        rcases flushed.next with ⟨goesOn, _⟩ | ends
        · rw [goesOn.sameDict]
          exact inSources
        · rw [ends.noDict]
          exact fun _ member => absurd member List.not_mem_nil
      · intro _ symbol member
        rw [flushed.frame] at member ⊢
        obtain ⟨old, _, rfl⟩ := List.mem_map.mp member
        exact Nat.zero_testBit _

/-- A time is stored for the values that have settled. -/
theorem Rests.stamp
    (rests : trace.Rests calls log)
    {timeval : BitVec 64}
    (rising : log.time ≤ timeval)
    {maxtime : BitVec 64}
    (reached : maxtime ≤ timeval)
    (passed : trace.later = true → maxtime < timeval)
    (lasttime : BitVec 64)
    {timeset : Bool}
    (isSet : timeset = true) :
    Follows
      { trace with
        timeset := timeset
        maxtime := maxtime
        lasttime := lasttime
        timetable := trace.timetable.setIfInBounds trace.timepos timeval }
      calls (log.setTime timeval) := by
  refine
    { holds := rests.holds.stamp _ _ _ _ _ _
      onTime :=
        { unflushed := rests.unflushed
          granules := rests.granules
          now := ?_
          reached := fun _ => reached
          passed := passed
          unset := fun notSet => absurd (notSet.symm.trans isSet)
            Bool.false_ne_true }
      masks := rests.masks
      stores := rests.stores
      marked := ?_
      known := rests.known
      shown := ?_ }
  · exact Vector.getElem?_setIfInBounds_self_of_lt rests.holds.position
  · intro handle symbol isSymbol _ isLater isMarked
    have isFree := rests.free isLater symbol (List.mem_of_getElem? isSymbol)
    exact absurd (isFree.symm.trans isMarked) Bool.false_ne_true
  · obtain ⟨past, done, recorded, settled⟩ := rests.settled
    refine ⟨past, done, ⟨recorded.past, recorded.pending, recorded.legible,
      recorded.atStart⟩, fun handle facility isFacility => ?_⟩
    obtain ⟨entries, plays, isValue, earlier, same⟩ :=
      (settled handle facility isFacility).settled
    have earlier' : ∀ entry ∈ entries, entry.1 ≤ timeval := fun entry member =>
      Std.IsPreorder.le_trans _ _ _ (earlier entry member) rising
    refine ⟨entries, _, plays.stamp _ _ _ _ _ _, isValue, earlier', fun _ => rfl,
      ?_⟩
    exact (Timeline.valueAt_again earlier').trans same

/-- A trace goes on following its log when a time is stored. -/
theorem Follows.stamped
    (follows : trace.Follows calls log)
    (fits : trace.Fits calls)
    {timeval : BitVec 64}
    (rising : log.time ≤ timeval)
    {base : Trace}
    (stamped : Stamped trace timeval base) :
    base.Follows calls (log.setTime timeval) := by
  cases stamped with
  | ignored isSet notLater =>
      have reached := follows.onTime.reached isSet
      have notAfter : timeval ≤ trace.maxtime := BitVec.not_lt.mp notLater
      obtain rfl : timeval = log.time :=
        BitVec.le_antisymm (BitVec.le_trans notAfter reached) rising
      have isFirst : trace.later ≠ true := fun isLater =>
        BitVec.not_lt.mpr notAfter (follows.onTime.passed isLater)
      exact
        { holds := follows.holds
          onTime := ⟨follows.onTime.unflushed, follows.onTime.granules,
            follows.onTime.now, follows.onTime.reached, follows.onTime.passed,
            fun notSet => absurd (notSet.symm.trans isSet) Bool.false_ne_true⟩
          masks := follows.masks
          stores := follows.stores
          marked := fun _ _ _ _ isLater => absurd isLater isFirst
          known := follows.known
          shown := by
            obtain ⟨past, done, recorded, agrees⟩ := follows.shown
            exact ⟨past, done, recorded, fun handle facility isFacility =>
              ⟨(agrees handle facility isFacility).agrees⟩⟩ }
  | @moves bumped isSet isLater isBumped =>
      have rests := follows.bumped fits isBumped
      obtain ⟨_, _, sameSet, sameMaxtime⟩ := isBumped.frame
      rw [← sameMaxtime] at isLater
      exact rests.stamp rising (BitVec.le_of_lt isLater) (fun _ => isLater) _
        (sameSet.trans isSet)
  | starts notSet =>
      obtain ⟨_, isFirst, still⟩ := follows.onTime.unset notSet
      exact (follows.rests still).stamp rising (Std.IsPreorder.le_refl _)
        (fun isLater => absurd (isFirst.symm.trans isLater) Bool.false_ne_true) _
        rfl

/-- The times of the present section and a flag do not matter to the log. -/
theorem Follows.touch
    (follows : trace.Follows calls log)
    (firsttime lasttime : BitVec 64)
    (granuleDirty : Bool) :
    Follows
      { trace with
        firsttime := firsttime
        lasttime := lasttime
        granuleDirty := granuleDirty }
      calls log where
  holds := follows.holds.stamp _ _ _ _ _ _
  onTime := ⟨follows.onTime.unflushed, follows.onTime.granules,
    follows.onTime.now, follows.onTime.reached, follows.onTime.passed,
    follows.onTime.unset⟩
  masks := follows.masks
  stores := follows.stores
  marked := follows.marked
  known := follows.known
  shown := by
    obtain ⟨past, done, recorded, agrees⟩ := follows.shown
    refine ⟨past, done, ⟨recorded.past, recorded.pending, recorded.legible,
      recorded.atStart⟩, fun handle facility isFacility => ?_⟩
    obtain ⟨entries, value, plays, others⟩ :=
      (agrees handle facility isFacility).agrees
    exact ⟨entries, value, ⟨plays.plays⟩, others⟩

/-! ## Calls -/

/-- A caller that keeps to the rules has set the time before any value. -/
structure Started (trace : Trace) (log : Log) : Prop where
  timeset : trace.emitted = true → trace.timeset = true
  dirty : trace.timeset = true → trace.granuleDirty = true
  emitted : log.given ≠ [] → trace.emitted = true

theorem Follows.setTime64
    (follows : trace.Follows calls log)
    (fits : trace.Fits calls)
    {timeval : BitVec 64}
    (rising : log.time ≤ timeval) :
    ∃ trace', trace.setTime64 timeval = some trace' ∧
      trace'.Follows calls (log.setTime timeval) ∧
      trace'.facilities = trace.facilities ∧ trace'.timeset = true ∧
      trace'.granuleDirty = true ∧
      (trace.emitted = true → trace'.emitted = true) := by
  obtain ⟨base, isBase, stamped⟩ := stamp_spec follows.holds timeval
  have follows' := follows.stamped fits rising stamped
  obtain ⟨sameFacilities, sameEmitted, isSet⟩ := stamped.frame
  obtain ⟨trace', isNext, outcome⟩ := checkpoint_spec follows'.holds timeval
  have isCall : trace.setTime64 timeval =
      some { trace' with
        granuleDirty := true } := by
    rw [Trace.setTime64]
    simp only [Option.bind_eq_bind, Option.bind_some, isBase, isNext]
  rcases outcome with ⟨_, rfl⟩ | ⟨isFirst, repeats⟩
  · exact ⟨_, isCall, follows'.touch _ _ _, sameFacilities, isSet, rfl,
      sameEmitted.trans⟩
  · have keeps := repeats.keeps
    have sameSet := congrArg Trace.timeset keeps.frame
    have follows'' := (follows'.touch timeval timeval base.granuleDirty).repeats
      isSet isFirst repeats
    exact ⟨_, isCall, follows''.touch _ _ _,
      keeps.facilities.trans sameFacilities, sameSet.trans isSet, rfl,
      fun isEmitted => keeps.emitted (sameEmitted.trans isEmitted)⟩

/-- The symbols are written when the first value comes. -/
theorem Follows.ensureFacs
    (follows : trace.Follows calls log)
    (someSymbols : trace.symbols ≠ []) :
    Follows
      { trace with
        emitted := true
        sortedFacs := some trace.order
        header := some trace.facHeader }
      calls log where
  holds := ensureFacs_holds follows.holds someSymbols
  onTime := ⟨follows.onTime.unflushed, follows.onTime.granules,
    follows.onTime.now, follows.onTime.reached, follows.onTime.passed,
    follows.onTime.unset⟩
  masks := follows.masks
  stores := follows.stores
  marked := follows.marked
  known := follows.known
  shown := by
    obtain ⟨past, done, recorded, agrees⟩ := follows.shown
    refine ⟨past, done, ⟨recorded.past, recorded.pending, recorded.legible,
      recorded.atStart⟩, fun handle facility isFacility => ?_⟩
    obtain ⟨entries, value, plays, others⟩ :=
      (agrees handle facility isFacility).agrees
    exact ⟨entries, value, ⟨plays.plays⟩, others⟩

theorem Follows.prologue
    (follows : trace.Follows calls log)
    (started : trace.Started log)
    (fits : trace.Fits calls)
    (someSymbols : trace.symbols ≠ []) :
    ∃ trace', trace.prologue = some trace' ∧ trace'.Follows calls log ∧
      trace'.facilities = trace.facilities ∧ trace'.emitted = true ∧
      trace'.Started log := by
  rw [Trace.prologue]
  split
  · rename_i isEmitted
    exact ⟨trace, rfl, follows, rfl, isEmitted, started⟩
  · have follows' := follows.ensureFacs someSymbols
    simp only [Option.bind_eq_bind, Option.bind_some,
      ensureFacs_eq follows.holds someSymbols]
    split
    · rename_i isSet
      exact ⟨_, rfl, follows', rfl, rfl, fun _ => isSet, started.dirty,
        fun _ => rfl⟩
    · rename_i notSet
      rw [Bool.not_eq_true] at notSet
      obtain ⟨rfl, _⟩ := follows.onTime.unset notSet
      obtain ⟨trace', isNext, follows'', sameFacilities, isSet, isDirty,
        isEmitted⟩ := @Follows.setTime64 _ _ _ follows' ⟨fits.texts, fits.symbols⟩
          0 (Std.IsPreorder.le_refl _)
      exact ⟨trace', isNext, follows'', sameFacilities, isEmitted rfl,
        fun _ => isSet, fun _ => isDirty, fun _ => isEmitted rfl⟩

/-- A value that is none of the kind of its symbol changes nothing. -/
theorem Follows.ignores
    (follows : trace.Follows calls log)
    (isSet : trace.timeset = true)
    {kind : Kind}
    {handle : Nat}
    {symbol : Symbol}
    (isSymbol : trace.symbols[handle]? = some symbol)
    (differ : symbol.facility.kind ≠ kind)
    (value : Text) :
    trace.Follows calls (log.give kind handle value) where
  holds := follows.holds
  onTime := ⟨follows.onTime.unflushed, follows.onTime.granules,
    follows.onTime.now, follows.onTime.reached, follows.onTime.passed,
    fun notSet => absurd (notSet.symm.trans isSet) Bool.false_ne_true⟩
  masks := follows.masks
  stores := follows.stores
  marked := by
    intro other symbol' isSymbol' isBits isLater isMarked
    obtain ⟨earlier, isGiven, isValue⟩ :=
      follows.marked other symbol' isSymbol' isBits isLater isMarked
    exact ⟨earlier, Log.mem_period_give isGiven _ _ _, isValue⟩
  known := by
    intro given member
    rcases List.mem_append.mp member with isOld | isNew
    · exact follows.known given isOld
    · rw [List.mem_singleton.mp isNew]
      exact (List.getElem?_eq_some_iff.mp isSymbol).1
  shown := by
    obtain ⟨past, done, recorded, agrees⟩ := follows.shown
    refine ⟨past, done, recorded, fun other facility isFacility => ?_⟩
    obtain ⟨entries, old, plays, isOld, earlier, still, same⟩ :=
      (agrees other facility isFacility).agrees
    refine ⟨entries, old, plays, isOld, earlier, still, ?_⟩
    have notOwn : ¬ (handle = other ∧ kind = facility.kind) := by
      rintro ⟨rfl, rfl⟩
      rw [facilities, List.getElem?_map, isSymbol] at isFacility
      exact differ (congrArg Facility.kind (Option.some.inj isFacility))
    rw [Log.values_give, if_neg notOwn, List.append_nil]
    exact same

/--
A value is played back if the bits of a symbol are given no two values in a
period.
-/
theorem Follows.emitValue
    (follows : trace.Follows calls log)
    (started : trace.Started log)
    (fits : trace.Fits calls)
    {kind : Kind}
    {handle : Nat}
    (inside : handle < trace.symbols.length)
    {value : Text}
    (isCString : IsCString value)
    (counts : kind = .bits → value ≠ [])
    (steady : kind = .bits → ∀ earlier, (handle, earlier) ∈ log.period →
      earlier = value) :
    ∃ trace', Trace.emitValue kind (some handle) value trace = some trace' ∧
      trace'.Follows (calls + 1) (log.give kind handle value) ∧
      trace'.facilities = trace.facilities ∧
      trace'.Started (log.give kind handle value) := by
  have someSymbols : trace.symbols ≠ [] :=
    List.length_pos_iff.mp (Nat.zero_lt_of_lt inside)
  obtain ⟨first, isFirst, follows', sameFacilities, isEmitted, started'⟩ :=
    follows.prologue started fits someSymbols
  have isSet := started'.timeset isEmitted
  have sameLength := congrArg List.length sameFacilities
  rw [facilities, facilities, List.length_map, List.length_map] at sameLength
  obtain ⟨symbol, isSymbol⟩ : ∃ symbol, first.symbols[handle]? = some symbol :=
    ⟨_, List.getElem?_eq_getElem (sameLength ▸ inside)⟩
  rw [emitValue_eq counts, isFirst, Option.bind_some]
  by_cases isKind : symbol.facility.kind = kind
  · subst isKind
    obtain ⟨trace', isNext, sets⟩ := record_sets follows'.holds isEmitted isSymbol
      isCString (by
        intro isBits isLater
        cases isMarked : symbol.msk.testBit first.timepos with
        | false =>
            exact .inl rfl
        | true =>
            obtain ⟨earlier, isGiven, isValue⟩ :=
              follows'.marked handle symbol isSymbol isBits isLater isMarked
            rw [← steady isBits earlier isGiven]
            exact .inr isValue)
    refine ⟨trace', isNext, follows'.sets isSet isSymbol sets,
      sets.keeps.facilities.trans sameFacilities, ?_, ?_, ?_⟩
    · exact fun _ => (congrArg Trace.timeset sets.keeps.frame).trans isSet
    · exact fun _ => sets.keeps.dirty (started'.dirty isSet)
    · exact fun _ => sets.keeps.emitted isEmitted
  · exact ⟨first, record_otherKind isSymbol isKind,
      (follows'.ignores isSet isSymbol isKind value).more (Nat.le_succ _),
      sameFacilities, started'.timeset, started'.dirty, fun _ => isEmitted⟩

end

end Trace

end Simbus.Lxt2
