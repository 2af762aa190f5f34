import Simbus.Pcie.Client
import Simbus.Clocked.Safety
import Simbus.Clocked.Progress

/-!
# Waiting for an edge of the PCIe clock

What `__pcie_tlp_next_posedge` comes to before it looks at the inputs: on any
replies it ends, if at all, with the inputs of the last one, and on a running
clock it ends at the next rising edge.
-/

namespace Simbus.Pcie

open FourValued Clocked

variable {User : Type}

/-! ## Samples -/

/-- The inputs that the client has. -/
def SimbusPcieTlp.inputs (bus : SimbusPcieTlp User) : UntilSignals where
  userClk := bus.userClk
  rxTready := bus.rxTready
  txBeat := bus.txBeat
  txTvalid := bus.txTvalid
  txTuser := bus.txTuser

@[simp]
theorem sample_inputs (bus : SimbusPcieTlp User) :
    bus.sample bus.inputs = bus :=
  rfl

@[simp]
theorem sample_sample
    (bus : SimbusPcieTlp User)
    (first later : UntilSignals) :
    (bus.sample first).sample later = bus.sample later :=
  rfl

/-- The turns of the two loops. -/
def clockTurn : Call User Unit := do
  let _ ← sendReadyCommand

theorem start_clockTurn (bus : SimbusPcieTlp User) :
    (clockTurn : Call User Unit).start bus =
      .await bus fun
        | .finish => .finish () bus
        | .until signals => .finish () (bus.sample signals) := by
  simp only [clockTurn, sendReadyCommand, Program.start_bind,
    Program.start_exchange, Behavior.await_bind]
  congr 1
  funext reply
  cases reply <;> rfl

/-! ## Any replies -/

section

variable {waits fails : SimbusPcieTlp User → Prop}
variable {bus : SimbusPcieTlp User}

/-- A loop over exchanges changes the inputs only. -/
theorem safety_clockLoop
    (sound : ∀ signals,
      waits (bus.sample signals) ∧ fails (bus.sample signals))
    (condition : SimbusPcieTlp User → Bool) :
    (safety waits fails).Triple
      (fun _ state => ∃ signals, state = bus.sample signals)
      (Program.whileDo condition clockTurn)
      fun _ _ state => ∃ signals, state = bus.sample signals := by
  have turns : (safety waits fails).Triple
      (fun _ state => (∃ signals, state = bus.sample signals) ∧
        condition state = true)
      clockTurn
      fun _ _ state => ∃ signals, state = bus.sample signals := by
    rintro step state ⟨⟨signals, rfl⟩, _⟩
    rw [start_clockTurn]
    refine safe_await.mpr ⟨(sound signals).1, fun reply _ => ?_⟩
    cases reply with
    | finish =>
        exact safe_finish.mpr ⟨step, signals, rfl⟩
    | «until» later =>
        exact safe_finish.mpr ⟨step, later, rfl⟩
  refine Logic.Triple.weaken
    (safety_whileDo (fun _ state => ∃ signals, state = bus.sample signals)
      ?_ turns) (fun _ _ => id) fun _ _ _ reached => reached.1
  rintro step state ⟨signals, rfl⟩
  exact (sound signals).2

theorem safety_waitPosedge
    (sound : ∀ signals,
      waits (bus.sample signals) ∧ fails (bus.sample signals))
    (step : Nat) :
    (safety waits fails).ok
      (fun _ _ state => ∃ signals, state = recordTransfer (bus.sample signals))
      step (waitPosedge.start bus) := by
  have loops : (safety waits fails).Triple
      (fun _ state => ∃ signals, state = bus.sample signals)
      waitPosedge
      fun _ _ state =>
        ∃ signals, state = recordTransfer (bus.sample signals) := by
    refine .bind (safety_clockLoop sound fun bus => bus.userClk = .one)
      fun _ => ?_
    refine .bind (safety_clockLoop sound fun bus => bus.userClk = .zero)
      fun _ => ?_
    refine .modifyState ?_
    rintro _ state ⟨signals, rfl⟩
    exact ⟨signals, rfl⟩
  exact loops step bus ⟨bus.inputs, rfl⟩

end

/-! ## A running clock -/

/-- The level of the clock before a step, which is known at the start. -/
def clockBefore (start : Logic4) (stream : Nat → UntilSignals) : Nat → Logic4
  | 0 => start
  | step + 1 => (stream step).userClk

/-- The clock rises at a step. -/
def IsEdge (start : Logic4) (stream : Nat → UntilSignals) (step : Nat) : Prop :=
  clockBefore start stream step = .zero ∧ (stream step).userClk = .one

/-- A clock that is always 0 or 1 and rises again and again. -/
structure RunningClock
    (start : Logic4)
    (stream : Nat → UntilSignals) : Prop where
  digital : ∀ step,
    clockBefore start stream step = .zero ∨ clockBefore start stream step = .one
  rises : ∀ step, ∃ edge, step ≤ edge ∧ IsEdge start stream edge

/-- The first edge from a step on. -/
structure NextEdge
    (start : Logic4)
    (stream : Nat → UntilSignals)
    (step edge : Nat) : Prop where
  later : step ≤ edge
  isEdge : IsEdge start stream edge
  first : ∀ other, step ≤ other → other < edge → ¬ IsEdge start stream other

theorem RunningClock.nextEdge
    {start : Logic4}
    {stream : Nat → UntilSignals}
    (clock : RunningClock start stream)
    (step : Nat) :
    ∃ edge, NextEdge start stream step edge := by
  classical
  have exists_edge := clock.rises step
  refine ⟨Nat.find exists_edge, (Nat.find_spec exists_edge).1,
    (Nat.find_spec exists_edge).2, ?_⟩
  intro other later before isEdge
  exact Nat.find_min exists_edge before ⟨later, isEdge⟩

/-- The UNTIL replies of a stream. -/
def untilReplies (stream : Nat → UntilSignals) (step : Nat) : Reply :=
  .until (stream step)

section

variable {start : Logic4}
variable {stream : Nat → UntilSignals}
variable {fails escape : SimbusPcieTlp User → Prop}
variable {bus : SimbusPcieTlp User}

/-- The client has the inputs of the last step, if there was one. -/
def Sampled
    (stream : Nat → UntilSignals)
    (bus : SimbusPcieTlp User)
    (begin step : Nat)
    (state : SimbusPcieTlp User) : Prop :=
  ∃ signals, state = bus.sample signals ∧
    ∀ last, begin ≤ last → step = last + 1 → signals = stream last

/-- One turn of a loop takes the inputs of the next step. -/
theorem progress_clockTurn
    {post : Assertion (SimbusPcieTlp User) Unit}
    {step : Nat}
    {state : SimbusPcieTlp User}
    (reached : post () (step + 1) (state.sample (stream step))) :
    (progress (untilReplies stream) fails escape).ok post step
      (clockTurn.start state) := by
  rw [start_clockTurn]
  exact Leads.await (.now (.finished reached))

theorem Sampled.turn
    {begin step : Nat}
    {state : SimbusPcieTlp User}
    (samples : Sampled stream bus begin step state) :
    Sampled stream bus begin (step + 1) (state.sample (stream step)) := by
  obtain ⟨signals, rfl, _⟩ := samples
  refine ⟨stream step, rfl, fun last _ same => ?_⟩
  obtain rfl : step = last := by omega
  rfl

/-- In the first loop the next edge is still to come. -/
structure WhileHigh
    (start : Logic4)
    (stream : Nat → UntilSignals)
    (bus : SimbusPcieTlp User)
    (begin edge step : Nat)
    (state : SimbusPcieTlp User) : Prop where
  begun : begin ≤ step
  before : step ≤ edge
  aligned : state.userClk = clockBefore start stream step
  samples : Sampled stream bus begin step state

/-- In the second loop it is still to come, or has just been seen. -/
structure WhileLow
    (start : Logic4)
    (stream : Nat → UntilSignals)
    (bus : SimbusPcieTlp User)
    (begin edge step : Nat)
    (state : SimbusPcieTlp User) : Prop where
  begun : begin ≤ step
  samples : Sampled stream bus begin step state
  phase :
    (step ≤ edge ∧ state.userClk = .zero ∧
      clockBefore start stream step = .zero) ∨
    (step = edge + 1 ∧ state.userClk = .one)

theorem progress_highLoop
    {begin edge : Nat}
    (next : NextEdge start stream begin edge) :
    (progress (untilReplies stream) fails escape).Triple
      (WhileHigh start stream bus begin edge)
      (Program.whileDo (fun bus => bus.userClk = .one) clockTurn)
      fun _ step state => WhileHigh start stream bus begin edge step state ∧
        decide (state.userClk = .one) = false := by
  refine progress_whileDo _ (fun step => edge - step) ?_
  intro step state holds isHigh
  have begun := holds.begun
  have before := holds.before
  have notEdge : step ≠ edge := by
    rintro rfl
    rw [holds.aligned, next.isEdge.1] at isHigh
    cases isHigh
  refine progress_clockTurn ⟨⟨?_, ?_, rfl, holds.samples.turn⟩, ?_, ?_⟩
  all_goals omega

theorem progress_lowLoop
    (clock : RunningClock start stream)
    {begin edge : Nat}
    (next : NextEdge start stream begin edge) :
    (progress (untilReplies stream) fails escape).Triple
      (WhileLow start stream bus begin edge)
      (Program.whileDo (fun bus => bus.userClk = .zero) clockTurn)
      fun _ step state => WhileLow start stream bus begin edge step state ∧
        decide (state.userClk = .zero) = false := by
  refine progress_whileDo _ (fun step => edge + 1 - step) ?_
  intro step state holds isLow
  have begun := holds.begun
  rcases holds.phase with ⟨before, _, wasLow⟩ | ⟨_, isHigh⟩
  · refine progress_clockTurn ⟨⟨?_, holds.samples.turn, ?_⟩, ?_, ?_⟩
    · omega
    · rcases clock.digital (step + 1) with low | high
      · have notEdge : step ≠ edge := by
          rintro rfl
          have isHigh := next.isEdge.2
          rw [clockBefore] at low
          rw [low] at isHigh
          cases isHigh
        exact .inl ⟨by omega, low, low⟩
      · have isEdge : step = edge := by
          by_contra notEdge
          exact next.first step begun (by omega) ⟨wasLow, high⟩
        exact .inr ⟨by omega, high⟩
    · omega
    · omega
  · rw [isHigh] at isLow
    cases isLow

/-- On a running clock the wait ends at the next edge. -/
theorem progress_waitPosedge
    (clock : RunningClock start stream)
    {step : Nat}
    (aligned : bus.userClk = clockBefore start stream step) :
    (progress (untilReplies stream) fails escape).ok
      (fun _ step' state => ∃ edge, NextEdge start stream step edge ∧
        step' = edge + 1 ∧
        state = recordTransfer (bus.sample (stream edge)))
      step (waitPosedge.start bus) := by
  obtain ⟨edge, next⟩ := clock.nextEdge step
  have loops : (progress (untilReplies stream) fails escape).Triple
      (WhileHigh start stream bus step edge)
      waitPosedge
      fun _ step' state => step' = edge + 1 ∧
        state = recordTransfer (bus.sample (stream edge)) := by
    refine .bind (progress_highLoop next) fun _ => ?_
    have lowLoop : (progress (untilReplies stream) fails escape).Triple
        (WhileLow start stream bus step edge) _ _ :=
      progress_lowLoop clock next
    refine .bind (lowLoop.weaken ?_ fun _ _ _ => id) fun _ => ?_
    · rintro now state ⟨holds, notHigh⟩
      refine ⟨holds.begun, holds.samples, .inl ⟨holds.before, ?_⟩⟩
      have level := clock.digital now
      rw [← holds.aligned] at level ⊢
      rcases level with low | high
      · exact ⟨low, low⟩
      · rw [high] at notHigh
        cases notHigh
    · refine .modifyState ?_
      rintro now state ⟨holds, notLow⟩
      rcases holds.phase with ⟨_, low, _⟩ | ⟨isAfter, _⟩
      · rw [low] at notLow
        cases notLow
      · obtain ⟨signals, rfl, isLast⟩ := holds.samples
        rw [isLast edge next.later isAfter]
        exact ⟨isAfter, rfl⟩
  refine Logic.mono (loops step bus ⟨Nat.le_refl step, next.later, aligned,
    bus.inputs, rfl, fun last begun same => ?_⟩) ?_
  · omega
  · rintro _ step' state ⟨isAfter, shape⟩
    exact ⟨edge, next, isAfter, shape⟩

end

end Simbus.Pcie
