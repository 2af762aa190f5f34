import Simbus.Lxt2.Playback
import Mathlib

/-!
# From the first call to the file

A session is a sequence of calls whose times do not go back and which gives the
bits of a symbol one value in a period only.  Its file has every symbol under its
name, with the value at any time that was given last up to this time.
-/

set_option autoImplicit false

namespace Simbus.Lxt2

open Numbering

/-- What a call adds to the log. -/
def Caller.note (caller : Caller) (log : Log) : Call → Log
  | .symbolAdd _ _ _ _ _ _ => log
  | .setTime64 timeval => log.setTime timeval
  | .emitValue kind pointer value =>
      match caller.pointers[pointer]?.join with
      | none => log
      | some handle =>
          if kind = .bits ∧ value.text = [] then
            log
          else
            log.give kind handle value.text
  | .flush => log

/--
A call that keeps to the rules: times do not go back, bits are given once in a
period, and the trace is not flushed before its end.
-/
def Caller.Regular (caller : Caller) (log : Log) : Call → Prop
  | .symbolAdd _ _ _ _ _ _ => True
  | .setTime64 timeval => log.time ≤ timeval
  | .emitValue kind pointer value =>
      kind = .bits → value.text ≠ [] → ∀ entry ∈ log.period,
        caller.pointers[pointer]?.join = some entry.1 → entry.2 = value.text
  | .flush => False

instance (caller : Caller) (log : Log) (next : Call) :
    Decidable (caller.Regular log next) :=
  match next with
  | .symbolAdd _ _ _ _ _ _ => inferInstanceAs (Decidable True)
  | .setTime64 timeval => inferInstanceAs (Decidable (log.time ≤ timeval))
  | .emitValue kind pointer value =>
      inferInstanceAs (Decidable
        (kind = .bits → value.text ≠ [] → ∀ entry ∈ log.period,
          caller.pointers[pointer]?.join = some entry.1 → entry.2 = value.text))
  | .flush => inferInstanceAs (Decidable False)

/-- A call that keeps to the rules, with what it adds to the log. -/
def Caller.play (state : Caller × Log) (next : Call) : Option (Caller × Log) :=
  if state.1.Regular state.2 next then
    (state.1.perform next).map fun caller => (caller, state.1.note state.2 next)
  else
    none

/-- The calls since a trace was opened, and what they have given. -/
inductive Session : List Call → Caller → Log → Prop
  | opened : Session [] .opened .empty
  | call
      {calls : List Call}
      {caller caller' : Caller}
      {log : Log}
      {next : Call}
      (session : Session calls caller log)
      (regular : caller.Regular log next)
      (performed : caller.perform next = some caller') :
      Session (calls ++ [next]) caller' (caller.note log next)

section

variable {calls : List Call}
variable {caller caller' : Caller}
variable {log : Log}

/-- Calls that all keep to the rules make up a session. -/
theorem session_of_plays
    (plays : calls.foldlM Caller.play (.opened, .empty) = some (caller, log)) :
    Session calls caller log := by
  induction calls using List.reverseRecOn generalizing caller log with
  | nil =>
      cases plays
      exact .opened
  | append_singleton calls next inductionHypothesis =>
      rw [List.foldlM_append] at plays
      obtain ⟨⟨before, given⟩, isBefore, isNext⟩ := Option.bind_eq_some_iff.mp plays
      rw [List.foldlM_cons, Caller.play] at isNext
      split at isNext
      · rename_i regular
        obtain ⟨_, isStep, isLast⟩ := Option.bind_eq_some_iff.mp isNext
        obtain ⟨_, performed, rfl⟩ := Option.map_eq_some_iff.mp isStep
        cases isLast
        exact (inductionHypothesis isBefore).call regular performed
      · cases isNext

theorem Session.holds (session : Session calls caller log) : caller.Holds := by
  induction session with
  | opened =>
      exact Caller.opened_holds
  | call _ _ performed inductionHypothesis =>
      obtain ⟨caller', isNext, holds, _⟩ :=
        Caller.perform_holds inductionHypothesis _
      rw [performed] at isNext
      rwa [Option.some.inj isNext]

namespace Trace

variable {trace : Trace}

theorem opened_follows : Trace.init.Follows 0 .empty where
  holds := init_holds
  onTime :=
    { unflushed := rfl
      granules := rfl
      now := rfl
      reached := fun isSet => absurd isSet Bool.false_ne_true
      passed := fun isLater => absurd isLater Bool.false_ne_true
      unset := fun _ => ⟨rfl, rfl, rfl⟩ }
  masks := Nat.le_refl _
  stores := ⟨[], Nat.le_refl _, fun _ => id, fun _ => id⟩
  marked := fun _ _ _ _ isLater => absurd isLater Bool.false_ne_true
  known := fun _ member => absurd member List.not_mem_nil
  shown := (init_holds.fresh rfl).shown rfl

/-- A symbol that is added has no values yet. -/
theorem Follows.symbolAdd
    {count : Nat}
    (follows : trace.Follows count log)
    (started : trace.Started log)
    {name : Text}
    (isCString : IsCString name)
    {rows msb lsb : BitVec 32}
    {kind : Kind}
    {handle : Option Nat}
    {trace' : Trace}
    (isAdded : trace.symbolAdd name rows msb lsb kind = some (handle, trace')) :
    trace'.Follows (count + 1) log ∧ trace'.Started log := by
  have holds' := symbolAdd_holds follows.holds isCString isAdded
  rcases symbolAdd_added follows.holds isAdded with
    ⟨_, rfl, _⟩ | ⟨notEmitted, _, _, rfl⟩
  · exact ⟨follows.more (Nat.le_succ _), started⟩
  · have fresh := follows.holds.fresh notEmitted
    have noValues : log.given = [] := by
      by_contra someValues
      exact absurd (notEmitted.symm.trans (started.emitted someValues))
        Bool.false_ne_true
    refine ⟨?_, started.timeset, started.dirty, started.emitted⟩
    exact
      { holds := holds'
        onTime := ⟨follows.onTime.unflushed, follows.onTime.granules,
          follows.onTime.now, follows.onTime.reached, follows.onTime.passed,
          follows.onTime.unset⟩
        masks := by
          refine follows.masks.trans (Nat.mul_le_mul_left _ ?_)
          exact List.length_append.ge.trans' (Nat.le_add_right _ _)
        stores := by
          obtain ⟨sources, atMost, inSources, valuesIn⟩ := follows.stores
          refine ⟨sources ++ [(Symbol.added
            (facilityOf name rows msb lsb kind)).facility.stored
              (Symbol.added (facilityOf name rows msb lsb kind)).value], ?_,
            fun text member => List.mem_append_left _ (inSources text member), ?_⟩
          · rw [List.length_append]
            exact Nat.add_le_add_right atMost 1
          · intro text member
            obtain ⟨symbol, isSymbol, rfl⟩ := List.mem_map.mp member
            rcases List.mem_append.mp isSymbol with isOld | isNew
            · exact List.mem_append_left _ (valuesIn _ (List.mem_map_of_mem isOld))
            · rw [List.mem_singleton.mp isNew]
              exact List.mem_append_right _ List.mem_cons_self
        marked := fun _ _ _ _ isLater => absurd (fresh.first.symm.trans isLater)
          Bool.false_ne_true
        known := by
          rw [noValues]
          exact fun _ member => absurd member List.not_mem_nil
        shown := (holds'.fresh notEmitted).shown noValues }

end Trace

/-- A caller whose session has kept to the rules. -/
structure Caller.Follows
    (caller : Caller)
    (count : Nat)
    (log : Log) : Prop where
  holds : caller.Holds
  trace : caller.trace.Follows count log
  started : caller.trace.Started log

theorem Caller.Follows.performs
    {count : Nat}
    (follows : caller.Follows count log)
    (fits : caller.trace.Fits count)
    {next : Call}
    (regular : caller.Regular log next)
    (performed : caller.perform next = some caller') :
    caller'.Follows (count + 1) (caller.note log next) := by
  obtain ⟨_, isNext, holds', _⟩ := Caller.perform_holds follows.holds next
  rw [performed] at isNext
  obtain rfl := Option.some.inj isNext
  cases next with
  | symbolAdd name rows msb lsb kind inRange =>
      obtain ⟨added, isAdded, isLast⟩ := Option.bind_eq_some_iff.mp performed
      obtain ⟨follows', started⟩ := follows.trace.symbolAdd follows.started
        name.isCString isAdded
      obtain rfl := Option.some.inj isLast
      exact ⟨holds', follows', started⟩
  | setTime64 timeval =>
      obtain ⟨trace', isTrace, follows', _, isSet, isDirty, isEmitted⟩ :=
        follows.trace.setTime64 fits regular
      rw [perform, isTrace] at performed
      obtain rfl := Option.some.inj performed
      exact ⟨holds', follows'.more (Nat.le_succ _), fun _ => isSet,
        fun _ => isDirty, fun given => isEmitted (follows.started.emitted given)⟩
  | emitValue kind pointer value =>
      rw [perform] at performed
      rw [note]
      cases isPointer : caller.pointers[pointer]?.join with
      | none =>
          rw [isPointer, Trace.emitValue_none] at performed
          obtain rfl := Option.some.inj performed
          exact ⟨holds', follows.trace.more (Nat.le_succ _), follows.started⟩
      | some handle =>
          rw [isPointer] at performed
          simp only
          split
          · rename_i isEmpty
            rw [isEmpty.1, isEmpty.2, Trace.emitValue_empty] at performed
            obtain rfl := Option.some.inj performed
            exact ⟨holds', follows.trace.more (Nat.le_succ _), follows.started⟩
          · rename_i notEmpty
            have counts : kind = .bits → value.text ≠ [] := fun isBits isNil =>
              notEmpty ⟨isBits, isNil⟩
            obtain ⟨trace', isTrace, follows', _, started⟩ :=
              follows.trace.emitValue follows.started fits
                (follows.holds.pointer isPointer) value.isCString counts
                fun isBits earlier member =>
                  regular isBits (counts isBits) (handle, earlier) member isPointer
            rw [isTrace] at performed
            obtain rfl := Option.some.inj performed
            exact ⟨holds', follows', started⟩
  | flush =>
      exact regular.elim

/-- A session of not too many calls is followed by its trace. -/
theorem Session.follows
    (session : Session calls caller log)
    (fits : caller.trace.Fits calls.length) :
    caller.Follows calls.length log := by
  induction session with
  | opened =>
      exact ⟨Caller.opened_holds, Trace.opened_follows, fun isEmitted =>
        absurd isEmitted Bool.false_ne_true, fun isSet =>
        absurd isSet Bool.false_ne_true, fun given => absurd rfl given⟩
  | @call calls caller caller' log next session regular performed
      inductionHypothesis =>
      obtain ⟨_, isNext, _, grows⟩ := Caller.perform_holds session.holds next
      rw [performed] at isNext
      obtain rfl := Option.some.inj isNext
      rw [List.length_append] at fits ⊢
      have fits' : caller.trace.Fits calls.length :=
        ⟨(Nat.add_le_add_right (Nat.le_add_right _ _) _).trans fits.texts,
          Nat.lt_of_le_of_lt grows fits.symbols⟩
      exact (inductionHypothesis fits').performs fits' regular performed

/-! ## The file -/

/-- The file of a trace has what its log says. -/
theorem Trace.Follows.closes
    {trace : Trace}
    {count : Nat}
    (follows : trace.Follows count log)
    (started : trace.Started log)
    (fits : trace.Fits count)
    (isEmitted : trace.emitted = true) :
    ∃ closed waveform, trace.close = some closed ∧
      readFile closed = some waveform ∧
      ∀ handle facility, trace.facilities[handle]? = some facility →
        ∀ time, waveform.value facility.name time =
          some (Timeline.valueAt facility.initial (log.values handle facility)
            time) := by
  have isDirty := started.dirty (started.timeset isEmitted)
  have goes : ¬ (trace.flushValid &&
      decide (trace.flushtime = trace.lasttime)) = true := by
    rw [follows.onTime.unflushed]
    exact Bool.false_ne_true
  obtain ⟨closed, written, mapdict, isClosed, flushed⟩ :=
    lastGranule_spec follows.holds isEmitted goes
  obtain ⟨past, done, recorded, settled⟩ := follows.flushed fits flushed
  have holds' := flushed.holds follows.holds isEmitted
  have sameFacilities : closed.facilities = trace.facilities :=
    flushed.facilities_eq
  have sameOrder : closed.sortedFacilities = trace.sortedFacilities := by
    rw [Trace.sortedFacilities, Trace.sortedFacilities, sameFacilities,
      order_congr sameFacilities]
  have isHeader : closed.header = some trace.facHeader :=
    (congrArg Trace.header flushed.frame).trans
      (follows.holds.written isEmitted).2.2
  have isPages : closed.pages past done = past.flatMap Section.pages := by
    rcases flushed.next with ⟨_, isOpen⟩ | ends
    · cases isOpen
    · rw [pages, recorded.atStart ends.counted]
      exact List.append_nil _
  have isSections := recorded.past
  rw [flushed.length_eq] at isSections
  refine ⟨closed, ⟨trace.sortedFacilities, past.flatMap Section.pages⟩, ?_, ?_, ?_⟩
  · rw [close, if_pos isDirty]
    exact isClosed
  · rw [readFile, isHeader]
    simp only [Option.bind_eq_bind, Option.bind_some,
      readFacilities_facHeader follows.holds]
    change (closed.sections.mapM fun fileSection =>
      readSection trace.symbols.length fileSection.contents).bind _ = _
    rw [isSections]
    rfl
  · intro handle facility isFacility time
    rw [← sameFacilities] at isFacility
    obtain ⟨entries, plays, _, _, same⟩ :=
      (settled handle facility isFacility).settled
    rw [isPages] at plays
    have isFirst : closed.timepos = 0 := congrArg Trace.timepos flushed.frame
    rw [← sameOrder, plays.waveform_value holds' isFirst isFacility time, same]

/--
The file of a session has every symbol that was added, and shows at any time the
value that was given last up to this time.
-/
theorem session_playback
    (session : Session calls caller log)
    (few : calls.length + dictStart ≤ 256 ^ 4)
    (fewSymbols : caller.trace.symbols.length < 256 ^ 3)
    (someValue : log.given ≠ []) :
    ∃ closed waveform, caller.trace.close = some closed ∧
      caller.trace.flush.bind Trace.close = some closed ∧
      readFile closed = some waveform ∧
      ∀ handle facility, caller.trace.facilities[handle]? = some facility →
        ∀ time, waveform.value facility.name time =
          some (Timeline.valueAt facility.initial (log.values handle facility)
            time) := by
  have fits : caller.trace.Fits calls.length := ⟨few, fewSymbols⟩
  have follows := session.follows fits
  obtain ⟨closed, waveform, isClosed, isFile, values⟩ :=
    follows.trace.closes follows.started fits (follows.started.emitted someValue)
  exact ⟨closed, waveform, isClosed,
    (Trace.flush_bind_close follows.holds.trace).trans isClosed, isFile, values⟩

/-- A bit that is given at time 5 is x before. -/
theorem session_playback_bit :
    ∃ name value caller log closed waveform,
      name.text = ['a'] ∧ value.text = ['1'] ∧
        [.symbolAdd name 0 0 0 .bits (bit_inRange name), .setTime64 5,
          .emitValue .bits 0 value].foldlM Caller.play (.opened, .empty) =
            some (caller, log) ∧
        caller.trace.close = some closed ∧ readFile closed = some waveform ∧
        waveform.value ['a'] 4 = some ['x'] ∧
        waveform.value ['a'] 7 = some ['1'] := by
  let name : CString := ⟨['a'], by decide⟩
  let value : CString := ⟨['1'], by decide⟩
  let calls : List Call :=
    [.symbolAdd name 0 0 0 .bits (bit_inRange name), .setTime64 5,
      .emitValue .bits 0 value]
  let facility : Facility := ⟨['a'], 0, 0, 0, .bits⟩
  have played : (calls.foldlM Caller.play (.opened, .empty)).any (fun state =>
      state.1.trace.facilities == [facility] && (state.2.given.length == 1 &&
        state.2.values 0 facility == [(5, ['1'])])) = true := by
    decide
  obtain ⟨⟨caller, log⟩, isPlayed, facts⟩ := (Option.any_eq_true _ _).mp played
  simp only [Bool.and_eq_true, beq_iff_eq] at facts
  obtain ⟨isFacilities, isGiven, isValues⟩ := facts
  have isFacility : caller.trace.facilities[0]? = some facility := by
    rw [isFacilities]
    rfl
  have oneSymbol : caller.trace.symbols.length = 1 := by
    have sameLength := congrArg List.length isFacilities
    rwa [Trace.facilities, List.length_map] at sameLength
  obtain ⟨closed, waveform, isClosed, _, isFile, values⟩ :=
    session_playback (session_of_plays isPlayed) (by decide)
      (by rw [oneSymbol]; decide) (List.length_pos_iff.mp (isGiven ▸ Nat.one_pos))
  have before := values 0 facility isFacility 4
  have behind := values 0 facility isFacility 7
  rw [isValues] at before behind
  exact ⟨name, value, caller, log, closed, waveform, rfl, rfl, isPlayed, isClosed,
    isFile, before, behind⟩

end

end Simbus.Lxt2
