import Simbus.Lxt2.Granules
import Mathlib

/-!
# Calls of the LXT2 writer

A caller adds symbols, sets the time, gives values to the symbols it has been
given pointers of, and closes the trace at the end.  Every call leaves the
invariant, so none of them follows a null pointer, leaves an array or finds the
numbers of a dictionary out of order; only the end of a trace that never got a
value can.
-/

set_option autoImplicit false

namespace Simbus.Lxt2

open ByteFormat Numbering

namespace Trace

section

variable {trace trace' base : Trace}
variable {timeval : BitVec 64}

/-! ## Times -/

/-- What comes of the present position when the time goes on. -/
inductive Bumped (trace : Trace) : Trace → Prop
  | stays (still : trace.bumptime = false) :
      Bumped trace trace
  | resumes (isFlushed : trace.flushValid = true) :
      Bumped trace
        { trace with
          bumptime := false
          flushValid := false }
  | advances
      (isEmitted : trace.emitted = true)
      (inside : trace.timepos + 1 < granuleSize) :
      Bumped trace
        { trace with
          bumptime := false
          timepos := trace.timepos + 1
          flushValid := false }
  | fills
      {written : WrittenGranule}
      {mapdict : Dictionary Nat}
      {trace' : Trace}
      (isEmitted : trace.emitted = true)
      (flushed : Flushed
        { trace with
          bumptime := false
          timepos := trace.timepos + 1
          flushValid := false }
        false written mapdict trace') :
      Bumped trace trace'

theorem bump_spec (holds : trace.Holds) :
    ∃ trace', trace.bump = some trace' ∧ Bumped trace trace' := by
  rw [bump]
  cases isBumped : trace.bumptime with
  | false =>
      exact ⟨trace, rfl, .stays isBumped⟩
  | true =>
      have isEmitted : trace.emitted = true := by
        cases notEmitted : trace.emitted with
        | false =>
            have still := (holds.fresh notEmitted).still
            rw [isBumped] at still
            cases still
        | true =>
            rfl
      cases isFlushed : trace.flushValid with
      | true =>
          have notFull : ¬ trace.timepos = granuleSize := holds.position.ne
          simp only [if_true, if_neg notFull]
          exact ⟨_, rfl, .resumes isFlushed⟩
      | false =>
          simp only [if_true, Bool.false_eq_true, if_false]
          split
          · rename_i isFull
            obtain ⟨someSymbols, isSorted, _⟩ := holds.written isEmitted
            obtain ⟨trace', written, mapdict, isNext, flushed⟩ :=
              @flushGranule_spec
                { trace with
                  bumptime := false
                  timepos := trace.timepos + 1
                  flushValid := false }
                someSymbols isSorted isFull.le holds.room Bool.false_ne_true false
            exact ⟨trace', isNext, .fills isEmitted flushed⟩
          · rename_i notFull
            have inside : trace.timepos + 1 < granuleSize :=
              Nat.lt_of_le_of_ne (Nat.succ_le_of_lt holds.position) notFull
            exact ⟨_, rfl, .advances isEmitted inside⟩

theorem Bumped.holds
    (bumped : Bumped trace trace')
    (holds : trace.Holds) :
    trace'.Holds := by
  cases bumped with
  | stays _ =>
      exact holds
  | resumes isFlushed =>
      have isFirst := holds.flushed isFlushed
      exact
        { holds with
          fresh := fun notEmitted =>
            { holds.fresh notEmitted with
              still := rfl
              unflushed := rfl }
          flushed := fun still => absurd still Bool.false_ne_true
          free := fun _ isLater => absurd (isFirst.symm.trans isLater)
            Bool.false_ne_true }
  | advances isEmitted inside =>
      exact
        { holds with
          position := inside
          symbols := fun symbol member => (holds.symbols symbol member).next
          fresh := fun notEmitted => absurd (notEmitted.symm.trans isEmitted)
            Bool.false_ne_true
          flushed := fun still => absurd still Bool.false_ne_true
          free := fun _ _ symbol member =>
            Nat.testBit_lt_two_pow (holds.symbols symbol member).masked }
  | fills isEmitted flushed =>
      exact flushed.holds holds isEmitted

/-- The time is stored where it belongs, or it does not count. -/
inductive Stamped (trace : Trace) (timeval : BitVec 64) : Trace → Prop
  | ignored
      (isSet : trace.timeset = true)
      (notLater : ¬ trace.maxtime < timeval) :
      Stamped trace timeval trace
  | moves
      {bumped : Trace}
      (isSet : trace.timeset = true)
      (isLater : trace.maxtime < timeval)
      (isBumped : Bumped trace bumped) :
      Stamped trace timeval
        { bumped with
          timetable := bumped.timetable.setIfInBounds bumped.timepos timeval
          lasttime := timeval }
  | starts (notSet : trace.timeset = false) :
      Stamped trace timeval
        { trace with
          timeset := true
          maxtime := timeval
          timetable := trace.timetable.setIfInBounds trace.timepos timeval }

/-- Times do not matter to the invariant. -/
theorem Holds.stamp
    (holds : trace.Holds)
    (maxtime firsttime lasttime : BitVec 64)
    (timetable : Vector (BitVec 64) granuleSize)
    (timeset granuleDirty : Bool) :
    Holds
      { trace with
        maxtime := maxtime
        firsttime := firsttime
        lasttime := lasttime
        timetable := timetable
        timeset := timeset
        granuleDirty := granuleDirty } :=
  { holds with
    fresh := fun notEmitted => { holds.fresh notEmitted with } }

theorem Stamped.holds
    (stamped : Stamped trace timeval base)
    (holds : trace.Holds) :
    base.Holds := by
  cases stamped with
  | ignored _ _ =>
      exact holds
  | moves _ _ bumped =>
      exact (bumped.holds holds).stamp _ _ _ _ _ _
  | starts _ =>
      exact holds.stamp _ _ _ _ _ _

theorem put?_timetable
    (holds : trace.Holds)
    (timeval : BitVec 64) :
    CheckedArray.put? trace.timetable trace.timepos timeval =
      some (trace.timetable.setIfInBounds trace.timepos timeval) := by
  rw [CheckedArray.put?_of_lt holds.position]
  congr 1
  ext place _
  rw [Vector.getElem_setIfInBounds, Vector.getElem_set]

theorem stamp_spec
    (holds : trace.Holds)
    (timeval : BitVec 64) :
    ∃ base, trace.stamp timeval = some base ∧ Stamped trace timeval base := by
  rw [stamp]
  split
  · rename_i isSet
    split
    · rename_i isLater
      obtain ⟨bumped, isBumped, isStep⟩ := bump_spec holds
      refine ⟨_, ?_, .moves isSet isLater isStep⟩
      simp only [Option.bind_eq_bind, Option.bind_some, isBumped,
        put?_timetable (isStep.holds holds)]
    · rename_i notLater
      exact ⟨trace, rfl, .ignored isSet notLater⟩
  · rename_i notSet
    rw [Bool.not_eq_true] at notSet
    refine ⟨_, ?_, .starts notSet⟩
    simp only [Option.bind_eq_bind, Option.bind_some, put?_timetable holds]

/-- At the start of a section the values come again. -/
theorem checkpoint_spec
    (holds : base.Holds)
    (timeval : BitVec 64) :
    ∃ trace', base.checkpoint timeval = some trace' ∧
      (base.later = true ∧ trace' = base ∨
        base.later = false ∧
          Repeats
            { base with
              firsttime := timeval
              lasttime := timeval }
            trace') := by
  rw [checkpoint]
  split
  · rename_i isFirst
    rw [Bool.and_eq_true, decide_eq_true_eq, decide_eq_true_eq] at isFirst
    have notLater : base.later = false := later_eq_false_iff.mpr isFirst
    obtain ⟨trace', isBurst, repeats⟩ :=
      @initialBurst_spec
        { base with
          firsttime := timeval
          lasttime := timeval }
        (holds.stamp _ _ _ _ _ _) notLater
    exact ⟨trace', isBurst, .inr ⟨notLater, repeats⟩⟩
  · rename_i notFirst
    rw [Bool.and_eq_true, decide_eq_true_eq, decide_eq_true_eq,
      ← later_eq_false_iff, Bool.not_eq_false] at notFirst
    exact ⟨base, rfl, .inl ⟨notFirst, rfl⟩⟩

theorem Bumped.frame (bumped : Bumped trace trace') :
    trace'.facilities = trace.facilities ∧ trace'.emitted = trace.emitted ∧
      trace'.timeset = trace.timeset ∧ trace'.maxtime = trace.maxtime := by
  cases bumped with
  | stays _ =>
      exact ⟨rfl, rfl, rfl, rfl⟩
  | resumes _ =>
      exact ⟨rfl, rfl, rfl, rfl⟩
  | advances _ _ =>
      exact ⟨rfl, rfl, rfl, rfl⟩
  | fills _ flushed =>
      refine ⟨flushed.facilities_eq, ?_, ?_, ?_⟩
      · rw [flushed.frame]
      · rw [flushed.frame]
      · rw [flushed.frame]

theorem Stamped.frame (stamped : Stamped trace timeval base) :
    base.facilities = trace.facilities ∧ base.emitted = trace.emitted ∧
      base.timeset = true := by
  cases stamped with
  | ignored isSet _ =>
      exact ⟨rfl, rfl, isSet⟩
  | moves isSet _ bumped =>
      obtain ⟨sameFacilities, sameEmitted, sameSet, _⟩ := bumped.frame
      exact ⟨sameFacilities, sameEmitted, sameSet.trans isSet⟩
  | starts _ =>
      exact ⟨rfl, rfl, rfl⟩

/-- A caller finds the same symbols behind a call, and they stay written. -/
structure Goes (trace trace' : Trace) : Prop where
  holds : trace'.Holds
  facilities : trace'.facilities = trace.facilities
  emitted : trace.emitted = true → trace'.emitted = true

theorem Goes.trans
    {trace'' : Trace}
    (first : trace.Goes trace')
    (second : trace'.Goes trace'') :
    trace.Goes trace'' where
  holds := second.holds
  facilities := second.facilities.trans first.facilities
  emitted := second.emitted ∘ first.emitted

theorem setTime64_goes
    (holds : trace.Holds)
    (timeval : BitVec 64) :
    ∃ trace', trace.setTime64 timeval = some trace' ∧ trace.Goes trace' := by
  obtain ⟨base, isBase, stamped⟩ := stamp_spec holds timeval
  obtain ⟨sameFacilities, sameEmitted, _⟩ := stamped.frame
  obtain ⟨trace', isNext, outcome⟩ :=
    checkpoint_spec (stamped.holds holds) timeval
  have isCall : trace.setTime64 timeval =
      some { trace' with
        granuleDirty := true } := by
    rw [setTime64]
    simp only [Option.bind_eq_bind, Option.bind_some, isBase, isNext]
  have goes : trace.Goes trace' := by
    rcases outcome with ⟨_, rfl⟩ | ⟨_, repeats⟩
    · exact ⟨stamped.holds holds, sameFacilities, sameEmitted.trans⟩
    · exact ⟨repeats.holds, repeats.keeps.facilities.trans sameFacilities,
        fun isEmitted => repeats.keeps.emitted (sameEmitted.trans isEmitted)⟩
  exact ⟨_, isCall, goes.holds.stamp _ _ _ _ _ _, goes.facilities, goes.emitted⟩

/-! ## Values -/

/-- Before the first value the symbols are written, and the time is set. -/
theorem prologue_goes
    (holds : trace.Holds)
    (someSymbols : trace.symbols ≠ []) :
    ∃ trace', trace.prologue = some trace' ∧ trace.Goes trace' ∧
      trace'.emitted = true := by
  rw [prologue]
  split
  · rename_i isEmitted
    exact ⟨trace, rfl, ⟨holds, rfl, id⟩, isEmitted⟩
  · have holds' := ensureFacs_holds holds someSymbols
    have isFacs := ensureFacs_eq holds someSymbols
    have goes : trace.Goes
        { trace with
          emitted := true
          sortedFacs := some trace.order
          header := some trace.facHeader } :=
      ⟨holds', rfl, fun _ => rfl⟩
    simp only [Option.bind_eq_bind, Option.bind_some, isFacs]
    split
    · exact ⟨_, rfl, goes, rfl⟩
    · obtain ⟨trace', isNext, goes'⟩ := setTime64_goes holds' 0
      exact ⟨trace', isNext, goes.trans goes', goes'.emitted rfl⟩

/-- The calls with a value of either kind. -/
def emitValue : Kind → Option Nat → Text → Trace → Option Trace
  | .bits => emitValueBitString
  | .string => emitValueString

/-- Without a symbol or without characters there are no bits to record. -/
theorem emitValue_none
    (kind : Kind)
    (value : Text) :
    emitValue kind none value trace = some trace := by
  cases kind <;> rfl

theorem emitValue_empty (symbol : Option Nat) :
    emitValue .bits symbol [] trace = some trace := by
  cases symbol <;> rfl

theorem emitValue_eq
    {kind : Kind}
    {handle : Nat}
    {value : Text}
    (counts : kind = .bits → value ≠ []) :
    emitValue kind (some handle) value trace =
      trace.prologue.bind (record kind handle value) := by
  cases kind with
  | bits =>
      exact if_neg (counts rfl)
  | string =>
      rfl

theorem emitValue_goes
    (holds : trace.Holds)
    (kind : Kind)
    {handle : Nat}
    (inside : handle < trace.symbols.length)
    {value : Text}
    (isCString : IsCString value) :
    ∃ trace', emitValue kind (some handle) value trace = some trace' ∧
      trace.Goes trace' ∧
      ((kind = .bits → value ≠ []) → trace'.emitted = true) := by
  by_cases counts : kind = .bits → value ≠ []
  · have someSymbols : trace.symbols ≠ [] :=
      List.length_pos_iff.mp (Nat.zero_lt_of_lt inside)
    obtain ⟨first, isFirst, goes, isEmitted⟩ := prologue_goes holds someSymbols
    have sameLength := congrArg List.length goes.facilities
    rw [facilities, facilities, List.length_map, List.length_map] at sameLength
    obtain ⟨symbol, isSymbol⟩ : ∃ symbol, first.symbols[handle]? = some symbol :=
      ⟨_, List.getElem?_eq_getElem (sameLength ▸ inside)⟩
    rw [emitValue_eq counts, isFirst, Option.bind_some]
    by_cases isKind : symbol.facility.kind = kind
    · rcases record_spec goes.holds isSymbol isKind with
        ⟨_, isSame⟩ | ⟨_, trace', isNext, changed⟩
      · exact ⟨first, isSame, goes, fun _ => isEmitted⟩
      · have holds' := changed.holds goes.holds isSymbol
          (normal_isCString isCString _) (normal_normal _ _) isEmitted
        have stays : first.emitted = true → trace'.emitted = true := by
          intro isEmitted
          obtain ⟨_, _, _, isTrace, _⟩ := changed.change
          rw [isTrace]
          exact isEmitted
        exact ⟨trace', isNext,
          goes.trans ⟨holds', changed.facilities_eq isSymbol, stays⟩,
          fun _ => stays isEmitted⟩
    · exact ⟨first, record_otherKind isSymbol isKind, goes, fun _ => isEmitted⟩
  · obtain ⟨rfl, isEmpty⟩ := Classical.not_imp.mp counts
    obtain rfl := not_not.mp isEmpty
    exact ⟨trace, rfl, ⟨holds, rfl, id⟩, fun someText => absurd rfl (someText rfl)⟩

/-! ## The end -/

/-- A value has been recorded wherever a section has gone on. -/
theorem Holds.emitted_of_later
    (holds : trace.Holds)
    (isLater : trace.later = true) :
    trace.emitted = true := by
  cases notEmitted : trace.emitted with
  | false =>
      have isFirst := (holds.fresh notEmitted).first
      rw [isLater] at isFirst
      cases isFirst
  | true =>
      rfl

/-- The last granule of a trace whose symbols are written. -/
theorem lastGranule_spec
    (holds : trace.Holds)
    (isEmitted : trace.emitted = true)
    (goes : ¬ (trace.flushValid && decide (trace.flushtime = trace.lasttime)) =
      true) :
    ∃ trace' written mapdict,
      flushGranule true { trace with timepos := trace.timepos + 1 } =
          some trace' ∧
        Flushed { trace with timepos := trace.timepos + 1 } true written mapdict
          trace' := by
  obtain ⟨someSymbols, isSorted, _⟩ := holds.written isEmitted
  exact @flushGranule_spec { trace with timepos := trace.timepos + 1 } someSymbols
    isSorted holds.position holds.room goes true

/-- A flush ends the section if there is one, and does nothing otherwise. -/
theorem flush_spec (holds : trace.Holds) :
    trace.flush = some trace ∨
      trace.emitted = true ∧ trace.granuleDirty = true ∧
        ∃ trace' written mapdict, trace.flush = some trace' ∧
          flushGranule true { trace with timepos := trace.timepos + 1 } =
            some trace' ∧
          Flushed { trace with timepos := trace.timepos + 1 } true written mapdict
            trace' := by
  rw [flush]
  split
  · rename_i isLater
    split
    · rename_i isDirty
      have isLater' : trace.later = true := by
        rw [Bool.or_eq_true, decide_eq_true_eq, decide_eq_true_eq] at isLater
        rw [later, Bool.or_eq_true, decide_eq_true_eq, decide_eq_true_eq]
        exact isLater.symm.imp_left Nat.pos_iff_ne_zero.mp
      have goes : ¬ (trace.flushValid &&
          decide (trace.flushtime = trace.lasttime)) = true := by
        intro isFlushed
        have isFirst := holds.flushed (Bool.and_eq_true_iff.mp isFlushed).1
        rw [isLater'] at isFirst
        cases isFirst
      have isEmitted := holds.emitted_of_later isLater'
      obtain ⟨trace', written, mapdict, isNext, flushed⟩ :=
        lastGranule_spec holds isEmitted goes
      exact .inr ⟨isEmitted, isDirty, trace', written, mapdict, isNext, isNext,
        flushed⟩
    · exact .inl rfl
  · exact .inl rfl

theorem flush_goes (holds : trace.Holds) :
    ∃ trace', trace.flush = some trace' ∧ trace.Goes trace' := by
  rcases flush_spec holds with
    same | ⟨isEmitted, _, trace', _, _, isNext, _, flushed⟩
  · exact ⟨trace, same, holds, rfl, id⟩
  · exact ⟨trace', isNext, flushed.holds holds isEmitted, flushed.facilities_eq,
      fun _ => (congrArg Trace.emitted flushed.frame).trans isEmitted⟩

/-- A flush before the end of a trace makes no difference. -/
theorem flush_bind_close (holds : trace.Holds) :
    trace.flush.bind close = trace.close := by
  rcases flush_spec holds with
    same | ⟨_, isDirty, trace', _, _, isNext, isGranule, flushed⟩
  · rw [same]
    rfl
  · have notDirty : ¬ trace'.granuleDirty = true := by
      rw [flushed.frame]
      exact Bool.false_ne_true
    rw [isNext, Option.bind_some, close, if_neg notDirty, close, if_pos isDirty,
      isGranule]

/-- The end of a trace fails where symbols wait for a first value in vain. -/
theorem close_eq_none_iff (holds : trace.Holds) :
    trace.close = none ↔
      trace.granuleDirty = true ∧ trace.symbols ≠ [] ∧
        trace.emitted = false := by
  rw [close]
  by_cases isDirty : trace.granuleDirty = true
  · rw [if_pos isDirty]
    by_cases isEmitted : trace.emitted = true
    · by_cases goes : (trace.flushValid &&
          decide (trace.flushtime = trace.lasttime)) = true
      · rw [flushGranule, if_pos goes]
        simp [isEmitted]
      · obtain ⟨trace', _, _, isNext, _⟩ := lastGranule_spec holds isEmitted goes
        rw [isNext]
        simp [isEmitted]
    · rw [Bool.not_eq_true] at isEmitted
      have fresh := holds.fresh isEmitted
      have goes : ¬ (trace.flushValid &&
          decide (trace.flushtime = trace.lasttime)) = true := by
        rw [fresh.unflushed]
        exact Bool.false_ne_true
      rw [flushGranule, if_neg goes]
      simp only [emitGranule]
      by_cases noSymbols : trace.symbols.length = 0
      · obtain ⟨stream, isEnded, _⟩ := @finalizeSection_spec
          { trace with
            flushValid := false
            granuleDirty := false
            zhandle := if trace.timegranule = 0 then .opened else trace.zhandle
            timepos := 0
            timegranule := trace.timegranule + 1 } (by
              have isFirst := (later_eq_false_iff.mp fresh.first).2
              rw [if_pos isFirst]
              exact GzStream.opened_hasRoom)
        have isNil := List.eq_nil_of_length_eq_zero noSymbols
        simp only [if_pos noSymbols, Option.bind_eq_bind, Option.bind_some,
          Bool.or_true, if_true, isEnded]
        simp [isNil]
      · have isSome : trace.symbols ≠ [] := fun none =>
          noSymbols (List.length_eq_zero_iff.mpr none)
        simp only [if_neg noSymbols, fresh.unsorted, Option.bind_eq_bind,
          Option.bind_none]
        exact iff_of_true trivial ⟨isDirty, isSome, isEmitted⟩
  · rw [if_neg isDirty]
    simp [isDirty]

end

end Trace

/-! ## Callers -/

/-- A text without a character 0. -/
structure CString where
  text : Text
  isCString : IsCString text

/--
A call; its symbol is the one that some earlier addition has returned, and the
length of an added range does not overflow.
-/
inductive Call where
  | symbolAdd (name : CString) (rows msb lsb : BitVec 32) (kind : Kind)
      (inRange : (Trace.facilityOf name.text rows msb lsb kind).InRange)
  | setTime64 (timeval : BitVec 64)
  | emitValue (kind : Kind) (pointer : Nat) (value : CString)
  | flush

/-- A facility of one bit has a length. -/
theorem bit_inRange (name : CString) :
    (Trace.facilityOf name.text 0 0 0 .bits).InRange :=
  Nat.le_of_ble_eq_true rfl

/-- A trace and the pointers that its caller has been given. -/
structure Caller where
  trace : Trace
  pointers : List (Option Nat)

/-- A caller that has just opened its trace. -/
def Caller.opened : Caller where
  trace := .init
  pointers := []

/-- Make a call; a pointer that has not been given is null. -/
def Caller.perform (caller : Caller) : Call → Option Caller
  | .symbolAdd name rows msb lsb kind _ => do
      let (pointer, trace) ← caller.trace.symbolAdd name.text rows msb lsb kind
      some
        { trace := trace
          pointers := caller.pointers ++ [pointer] }
  | .setTime64 timeval =>
      (caller.trace.setTime64 timeval).map fun trace =>
        { caller with trace := trace }
  | .emitValue kind pointer value =>
      (Trace.emitValue kind caller.pointers[pointer]?.join value.text
        caller.trace).map fun trace => { caller with trace := trace }
  | .flush =>
      caller.trace.flush.map fun trace => { caller with trace := trace }

/-- The invariant, and the symbols of all pointers are there. -/
structure Caller.Holds (caller : Caller) : Prop where
  trace : caller.trace.Holds
  inside : ∀ handle, some handle ∈ caller.pointers →
    handle < caller.trace.symbols.length

section

variable {caller : Caller}

theorem Trace.Goes.length
    {trace trace' : Trace}
    (goes : trace.Goes trace') :
    trace'.symbols.length = trace.symbols.length := by
  have sameLength := congrArg List.length goes.facilities
  rwa [Trace.facilities, Trace.facilities, List.length_map, List.length_map]
    at sameLength

theorem Caller.Holds.goes
    {trace' : Trace}
    (holds : caller.Holds)
    (goes : caller.trace.Goes trace') :
    ({ caller with trace := trace' } : Caller).Holds ∧
      caller.trace.symbols.length ≤ trace'.symbols.length :=
  ⟨⟨goes.holds, fun handle member => goes.length ▸ holds.inside handle member⟩,
    goes.length.ge⟩

/-- The symbol of a pointer, if it is not null. -/
theorem Caller.Holds.pointer
    (holds : caller.Holds)
    {pointer handle : Nat}
    (isSymbol : caller.pointers[pointer]?.join = some handle) :
    handle < caller.trace.symbols.length := by
  rw [Option.join_eq_some_iff] at isSymbol
  exact holds.inside handle (List.mem_of_getElem? isSymbol)

/-- Every call succeeds and leaves the invariant; no symbol goes. -/
theorem Caller.perform_holds
    (holds : caller.Holds)
    (call : Call) :
    ∃ caller', caller.perform call = some caller' ∧ caller'.Holds ∧
      caller.trace.symbols.length ≤ caller'.trace.symbols.length := by
  cases call with
  | symbolAdd name rows msb lsb kind inRange =>
      obtain ⟨handle, trace', isAdded⟩ :=
        Trace.symbolAdd_total holds.trace name.text inRange
      have holds' := Trace.symbolAdd_holds holds.trace name.isCString isAdded
      refine ⟨⟨trace', caller.pointers ++ [handle]⟩, ?_, ⟨holds', ?_⟩, ?_⟩
      · rw [perform, isAdded]
        rfl
      · intro known member
        rcases Trace.symbolAdd_added holds.trace isAdded with
          ⟨rfl, rfl, _⟩ | ⟨_, _, rfl, rfl⟩
        · rcases List.mem_append.mp member with isOld | isNull
          · exact holds.inside known isOld
          · cases List.mem_singleton.mp isNull
        · refine Nat.lt_of_lt_of_le ?_ List.length_append.ge
          rcases List.mem_append.mp member with isOld | isNew
          · exact Nat.lt_succ_of_lt (holds.inside known isOld)
          · cases List.mem_singleton.mp isNew
            exact Nat.lt_succ_self _
      · rcases Trace.symbolAdd_added holds.trace isAdded with
          ⟨_, rfl, _⟩ | ⟨_, _, _, rfl⟩
        · exact Nat.le_refl _
        · exact (Nat.le_add_right _ _).trans List.length_append.ge
  | setTime64 timeval =>
      obtain ⟨trace', isNext, goes⟩ := Trace.setTime64_goes holds.trace timeval
      exact ⟨_, congrArg (Option.map _) isNext, holds.goes goes⟩
  | emitValue kind pointer value =>
      cases isSymbol : caller.pointers[pointer]?.join with
      | none =>
          refine ⟨caller, ?_, holds, Nat.le_refl _⟩
          rw [perform, isSymbol, Trace.emitValue_none]
          rfl
      | some handle =>
          obtain ⟨trace', isNext, goes, _⟩ := Trace.emitValue_goes holds.trace kind
            (holds.pointer isSymbol) value.isCString
          refine ⟨_, ?_, holds.goes goes⟩
          rw [perform, isSymbol, isNext]
          rfl
  | flush =>
      obtain ⟨trace', isNext, goes⟩ := Trace.flush_goes holds.trace
      exact ⟨_, congrArg (Option.map _) isNext, holds.goes goes⟩

theorem Caller.opened_holds : Caller.opened.Holds where
  trace := Trace.init_holds
  inside := fun _ member => absurd member List.not_mem_nil

theorem Caller.calls_hold
    (holds : caller.Holds)
    (calls : List Call) :
    ∃ caller', calls.foldlM Caller.perform caller = some caller' ∧
      caller'.Holds := by
  induction calls generalizing caller with
  | nil =>
      exact ⟨caller, rfl, holds⟩
  | cons call calls inductionHypothesis =>
      obtain ⟨middle, isMiddle, holds', _⟩ := perform_holds holds call
      obtain ⟨caller', isLast, holds''⟩ := inductionHypothesis holds'
      refine ⟨caller', ?_, holds''⟩
      rw [List.foldlM_cons, isMiddle]
      exact isLast

/--
Before the facilities are written, exactly the names that have been added are found,
each at its place in the order of addition.  Behind it, looking for a name follows a
null pointer if a symbol shares its chain, as for all names that have been added, and
finds nothing otherwise.
-/
theorem calls_symbolFind (calls : List Call) :
    ∃ caller, calls.foldlM Caller.perform .opened = some caller ∧
      caller.trace.names.Nodup ∧
      ∀ name, caller.trace.symbolFind name =
        if caller.trace.emitted = true ∧
            ∃ other ∈ caller.trace.names, hash other = hash name then
          none
        else
          some (caller.trace.names.idxOf? name) := by
  obtain ⟨caller, isCaller, holds⟩ := Caller.calls_hold Caller.opened_holds calls
  exact ⟨caller, isCaller, holds.trace.distinct, Trace.symbolFind_eq holds.trace⟩

/--
No sequence of calls fails, whatever the names, times and values are.  Behind it an
addition fails exactly where a new symbol has a range whose length overflows, and
the end fails exactly where there are symbols and the time has been set since the
last granule, but the facilities have not been written.
-/
theorem calls_succeed (calls : List Call) :
    ∃ caller, calls.foldlM Caller.perform .opened = some caller ∧
      (∀ name rows msb lsb kind,
        caller.trace.symbolAdd name rows msb lsb kind = none ↔
          caller.trace.emitted = false ∧ name ∉ caller.trace.names ∧
            ¬ (Trace.facilityOf name rows msb lsb kind).InRange) ∧
      (caller.trace.close = none ↔
        caller.trace.granuleDirty = true ∧ caller.trace.symbols ≠ [] ∧
          caller.trace.emitted = false) := by
  obtain ⟨caller, isCaller, holds⟩ := Caller.calls_hold Caller.opened_holds calls
  exact ⟨caller, isCaller, Trace.symbolAdd_eq_none_iff holds.trace,
    Trace.close_eq_none_iff holds.trace⟩

end

end Simbus.Lxt2
