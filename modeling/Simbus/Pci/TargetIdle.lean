import Simbus.Pci.Master

/-!
# Resynchronisation of an unselected target

A target that is not selected only follows FRAME#.  It loses track of the bus
exactly when FRAME# is released without having been driven to 1, except right
after the first clock of a dual address cycle.
-/

namespace Simbus.Pci

open FourValued Clocked

section

variable {User Handle : Type}

/-- The action claims the cycle for this target. -/
def TargetAction.selects : TargetAction → Bool
  | .memoryRead _ => true
  | .memoryWrite _ => true
  | .configRead => true
  | .configWrite => true
  | _ => false

/-- What the machine does to the client while it is not selected. -/
def followBus (pci : SimbusPci User Handle) : SimbusPci User Handle :=
  match targetAction pci with
  | .dualAddress => { pci with dacAddrLo := getAddr32 pci, targetState := .dac }
  | .skip => { pci with targetState := .busBusy }
  | .release => { pci with targetState := .idle }
  | _ => pci

/-- The machine ends at once on a sample that does not select it. -/
theorem pciTargetStateMachine_unselected
    {callbacks : Callbacks User Handle}
    {requestBus : Call User Handle Unit}
    (pci : SimbusPci User Handle)
    (identBelow : pci.ident < 16)
    (unselected : (targetAction pci).selects = false) :
    (pciTargetStateMachine callbacks requestBus).start pci =
      .finish () (followBus pci) := by
  cases action : targetAction pci <;>
    simp_all [pciTargetStateMachine, followBus, TargetAction.selects,
      doTargetDAC, setTargetState]

/-- Without a claim, a memory command is skipped like any other. -/
theorem memoryAction_selects
    {pci : SimbusPci User Handle}
    {action : TargetAction}
    (claimed : memoryAction pci = some action) :
    action.selects = true := by
  unfold memoryAction at claimed
  split at claimed
  · cases claimed
  · split_ifs at claimed <;> simp_all only [Option.some.injEq] <;>
      subst claimed <;> rfl

/-! ## The state that follows a sample -/

/-- The target state after a sample that does not select the target. -/
theorem followBus_targetState
    {pci : SimbusPci User Handle}
    (unselected : (targetAction pci).selects = false) :
    (followBus pci).targetState =
      match pci.targetState with
      | .idle =>
          if pci.seen.frameN = .zero then
            if getCommand pci = 0xd#4 then .dac else .busBusy
          else
            .idle
      | .dac => if pci.seen.frameN = .zero then .busBusy else .idle
      | .busBusy => if pci.seen.frameN = .one then .idle else .busBusy := by
  unfold followBus
  cases stateShape : pci.targetState with
  | idle =>
      by_cases frames : pci.seen.frameN = .zero
      · cases claimed : memoryAction pci with
        | none =>
            by_cases read : getIdsel pci = true ∧ getCommand pci = 0xa#4
            · simp [targetAction, stateShape, frames, claimed, read,
                TargetAction.selects] at unselected
            · by_cases write : getIdsel pci = true ∧ getCommand pci = 0xb#4
              · simp [targetAction, stateShape, frames, claimed, write,
                  TargetAction.selects] at unselected
              · by_cases dual : getCommand pci = 0xd#4 <;>
                  simp [targetAction, stateShape, frames, claimed, read,
                    write, dual]
        | some action =>
            simp [targetAction, stateShape, frames, claimed,
              memoryAction_selects claimed] at unselected
      · simp [targetAction, stateShape, frames]
  | dac =>
      by_cases frames : pci.seen.frameN = .zero
      · cases claimed : memoryAction pci with
        | none =>
            simp [targetAction, stateShape, frames, claimed]
        | some action =>
            simp [targetAction, stateShape, frames, claimed,
              memoryAction_selects claimed] at unselected
      · simp [targetAction, stateShape, frames]
  | busBusy =>
      by_cases raised : pci.seen.frameN = .one <;>
        simp [targetAction, stateShape, raised]

end

/-! ## Runs of an unselected target -/

/--
A run of the target machine over sampled bus states, none of which selects
the target.  `states` holds the client before each sample.
-/
structure UnselectedRun
    {User Handle : Type}
    (callbacks : Callbacks User Handle)
    (requestBus : Call User Handle Unit)
    (samples : Nat → BiSignals)
    (states : Nat → SimbusPci User Handle)
    (last : Nat) : Prop where
  start : (states 0).targetState = .idle
  identBelow : (states 0).ident < 16
  unselected : ∀ step, step < last →
    (targetAction { states step with seen := samples step }).selects = false
  sampled : ∀ step, step < last →
    (pciTargetStateMachine callbacks requestBus).start
        { states step with seen := samples step } =
      .finish () (states (step + 1))

section

variable {User Handle : Type}
variable {callbacks : Callbacks User Handle}
variable {requestBus : Call User Handle Unit}
variable {samples : Nat → BiSignals}
variable {states : Nat → SimbusPci User Handle}
variable {last : Nat}

namespace UnselectedRun

/-- The state after a sample, as long as the identifier is known. -/
private theorem next_of_ident
    (run : UnselectedRun callbacks requestBus samples states last)
    {step : Nat}
    (inside : step < last)
    (identBelow : (states step).ident < 16) :
    states (step + 1) =
      followBus { states step with seen := samples step } := by
  have finished := run.sampled step inside
  rw [pciTargetStateMachine_unselected
    { states step with seen := samples step } identBelow
    (run.unselected step inside)] at finished
  have same := congrArg (fun behavior => behavior.run []) finished
  simp only [Behavior.run_finish, Outcome.finished.injEq] at same
  exact same.2.1.symm

theorem ident
    (run : UnselectedRun callbacks requestBus samples states last)
    {step : Nat}
    (inside : step ≤ last) :
    (states step).ident < 16 := by
  induction step with
  | zero =>
      exact run.identBelow
  | succ step inductionHypothesis =>
      have before := inductionHypothesis (by omega)
      rw [run.next_of_ident (by omega) before]
      unfold followBus
      split <;> exact before

/-- Each state follows from the one before it and the sample. -/
theorem next
    (run : UnselectedRun callbacks requestBus samples states last)
    {step : Nat}
    (inside : step < last) :
    states (step + 1) =
      followBus { states step with seen := samples step } :=
  run.next_of_ident inside (run.ident (Nat.le_of_lt inside))

/-- The target state follows FRAME# and the command. -/
theorem next_targetState
    (run : UnselectedRun callbacks requestBus samples states last)
    {step : Nat}
    (inside : step < last) :
    (states (step + 1)).targetState =
      match (states step).targetState with
      | .idle =>
          if (samples step).frameN = .zero then
            if commandOn (samples step) = 0xd#4 then .dac else .busBusy
          else
            .idle
      | .dac => if (samples step).frameN = .zero then .busBusy else .idle
      | .busBusy =>
          if (samples step).frameN = .one then .idle else .busBusy := by
  rw [run.next inside, followBus_targetState (run.unselected step inside)]
  rfl

/-- After FRAME# at 0 the machine is not idle. -/
theorem not_idle
    (run : UnselectedRun callbacks requestBus samples states last)
    {step : Nat}
    (inside : step < last)
    (frames : (samples step).frameN = .zero) :
    (states (step + 1)).targetState ≠ .idle := by
  rw [run.next_targetState inside]
  cases (states step).targetState <;> simp only [frames, ↓reduceIte]
  · split <;> simp
  · simp
  · simp

end UnselectedRun

/-- The sample starts a cycle with the dual address command. -/
def OpensDualAddress
    (samples : Nat → BiSignals)
    (step : Nat) : Prop :=
  commandOn (samples step) = 0xd#4 ∧
    (step = 0 ∨ (samples (step - 1)).frameN ≠ .zero)

/--
FRAME# is released after 0 without having been driven to 1 only right after
the first clock of a dual address cycle.
-/
def FrameRaised
    (samples : Nat → BiSignals)
    (last : Nat) : Prop :=
  ∀ step, step + 1 < last →
    (samples step).frameN = .zero →
    (samples (step + 1)).frameN = .z ∨ (samples (step + 1)).frameN = .x →
    OpensDualAddress samples step

namespace UnselectedRun

/-- When FRAME# is always raised, the machine is idle after every such edge. -/
theorem idle_of_frameRaised
    (run : UnselectedRun callbacks requestBus samples states last)
    (raised : FrameRaised samples last)
    {step : Nat}
    (inside : step < last)
    (offFrame : (samples step).frameN ≠ .zero) :
    (states (step + 1)).targetState = .idle := by
  induction step using Nat.strongRecOn with
  | ind step inductionHypothesis =>
      -- Before a sample that follows no FRAME# the machine is idle.
      have idleBefore :
          ∀ earlier, earlier ≤ step →
            (earlier = 0 ∨ (samples (earlier - 1)).frameN ≠ .zero) →
              (states earlier).targetState = .idle := by
        intro earlier bounded first
        cases earlier with
        | zero =>
            exact run.start
        | succ earlier =>
            exact inductionHypothesis earlier (by omega) (by omega)
              (by simpa using first)
      rw [run.next_targetState inside]
      by_cases before : step = 0 ∨ (samples (step - 1)).frameN ≠ .zero
      · rw [idleBefore step (Nat.le_refl _) before]
        simp [offFrame]
      · rw [not_or, not_not] at before
        obtain ⟨previous, rfl⟩ : ∃ previous, step = previous + 1 :=
          ⟨step - 1, by omega⟩
        have frames : (samples previous).frameN = .zero := before.2
        by_cases one : (samples (previous + 1)).frameN = .one
        · have active := run.not_idle (by omega) frames
          cases stateShape : (states (previous + 1)).targetState <;>
            simp_all
        · have floats :
              (samples (previous + 1)).frameN = .z ∨
                (samples (previous + 1)).frameN = .x := by
            cases level : (samples (previous + 1)).frameN <;> simp_all
          obtain ⟨dual, first⟩ := raised previous inside frames floats
          have idle := idleBefore previous (by omega) first
          have inDac : (states (previous + 1)).targetState = .dac := by
            rw [run.next_targetState (by omega), idle]
            simp [frames, dual]
          rw [inDac]
          simp [offFrame]

/-- A machine that always resynchronises has seen FRAME# raised. -/
theorem frameRaised_of_idle
    (run : UnselectedRun callbacks requestBus samples states last)
    (idle : ∀ step, step < last → (samples step).frameN ≠ .zero →
      (states (step + 1)).targetState = .idle) :
    FrameRaised samples last := by
  intro step inside frames floats
  have offFrame : (samples (step + 1)).frameN ≠ .zero := by
    rcases floats with floats | floats <;> simp [floats]
  have notOne : (samples (step + 1)).frameN ≠ .one := by
    rcases floats with floats | floats <;> simp [floats]
  have idleAfter := idle (step + 1) inside offFrame
  rw [run.next_targetState inside] at idleAfter
  have active := run.not_idle (by omega) frames
  have inDac : (states (step + 1)).targetState = .dac := by
    cases stateShape : (states (step + 1)).targetState <;> simp_all
  rw [run.next_targetState (by omega)] at inDac
  have idleBefore : (states step).targetState = .idle := by
    cases stateShape : (states step).targetState <;> simp_all
  constructor
  · by_contra notDual
    simp [idleBefore, frames, notDual] at inDac
  · by_contra later
    rw [not_or, not_not] at later
    obtain ⟨previous, rfl⟩ : ∃ previous, step = previous + 1 :=
      ⟨step - 1, by omega⟩
    exact run.not_idle (by omega) later.2 idleBefore

end UnselectedRun

/--
An unselected target is idle after every sample with FRAME# not at 0 if and
only if FRAME# is never released after 0 without having been driven to 1,
except right after the first clock of a dual address cycle.
-/
theorem unselectedRun_idle_iff
    (run : UnselectedRun callbacks requestBus samples states last) :
    (∀ step, step < last → (samples step).frameN ≠ .zero →
        (states (step + 1)).targetState = .idle) ↔
      FrameRaised samples last :=
  ⟨run.frameRaised_of_idle, fun raised _ inside offFrame =>
    run.idle_of_frameRaised raised inside offFrame⟩

/-- The states of an unselected target that follows some samples. -/
def followSamples
    (pci : SimbusPci User Handle)
    (samples : Nat → BiSignals) : Nat → SimbusPci User Handle
  | 0 => pci
  | step + 1 =>
      followBus
        { followSamples pci samples step with seen := samples step }

theorem followSamples_ident
    (pci : SimbusPci User Handle)
    (samples : Nat → BiSignals)
    (step : Nat) :
    (followSamples pci samples step).ident = pci.ident := by
  induction step with
  | zero =>
      rfl
  | succ step inductionHypothesis =>
      rw [← inductionHypothesis, followSamples]
      unfold followBus
      split <;> rfl

/-- Samples that never select the target give a run. -/
theorem unselectedRun_followSamples
    {pci : SimbusPci User Handle}
    (idle : pci.targetState = .idle)
    (identBelow : pci.ident < 16)
    (unselected : ∀ step, step < last →
      (targetAction
        { followSamples pci samples step with
          seen := samples step }).selects = false) :
    UnselectedRun callbacks requestBus samples (followSamples pci samples)
      last where
  start := idle
  identBelow := identBelow
  unselected := unselected
  sampled := fun step inside =>
    pciTargetStateMachine_unselected
      { followSamples pci samples step with seen := samples step }
      (followSamples_ident pci samples step ▸ identBelow)
      (unselected step inside)

end

/-! ## A master abort of `simbus_pci_write64` -/

/-- A user without data and callbacks that do nothing. -/
def noCallbacks : Callbacks Unit Unit where
  need32 := fun _ _ _ device => (0, device)
  recv32 := fun _ _ _ _ device => device

/-- An UNTIL on a granted bus that nobody drives, in a phase of the clock. -/
def grantedUntil (pciClk : Logic4) : Reply :=
  .until
    { pciClk := pciClk
      pcixcap := .zero
      gntN := .zero
      idsel := .z
      resetN := none
      intN := none
      bi := BiSignals.released }

/-- The replies of a number of whole clocks without any response. -/
def grantedClocks : Nat → List Reply
  | 0 => []
  | clocks + 1 =>
      grantedUntil .one :: grantedUntil .zero :: grantedUntil .zero ::
        grantedUntil .one :: grantedClocks clocks

/-- A master right after a rising edge on a granted bus. -/
def grantedMaster : SimbusPci Unit Unit :=
  { SimbusPci.init 0 (fun _ => 0) () with
    pcixcap := .zero
    pciClk := .one
    pciGntN := .zero
    seen := BiSignals.released }

/-- What a master drives in each clock of a write that nobody answers. -/
def abortedWrite (clocks : Nat) : BiSignals :=
  match
      ((simbusPciWrite64 noCallbacks 1 0x1000 0 0).start grantedMaster).run
        (grantedClocks clocks) with
  | .waiting pci => pci.out
  | .finished _ pci _ => pci.out
  | .failed pci => pci.out

/-- A target with no regions. -/
def bystander : SimbusPci Unit Unit :=
  SimbusPci.init 1 (fun _ => 0) ()

/-- A cycle whose master drives FRAME# to 1 in its last data phase. -/
def raisedFrame (step : Nat) : BiSignals :=
  { BiSignals.released with
    frameN := if step = 0 then .zero else if step = 1 then .one else .z }

theorem raisedFrame_idle :
    UnselectedRun noCallbacks (pciRequestBus noCallbacks 1) raisedFrame
        (followSamples bystander raisedFrame) 5 ∧
      ∀ step, step < 5 → (raisedFrame step).frameN ≠ .zero →
        (followSamples bystander raisedFrame (step + 1)).targetState =
          .idle := by
  have run :
      UnselectedRun noCallbacks (pciRequestBus noCallbacks 1) raisedFrame
        (followSamples bystander raisedFrame) 5 :=
    unselectedRun_followSamples rfl (by decide) (by decide +kernel)
  refine ⟨run, (unselectedRun_idle_iff run).mpr ?_⟩
  intro step inside frames floats
  have raised :
      ∀ step < 4, (raisedFrame step).frameN = .zero →
        ¬ ((raisedFrame (step + 1)).frameN = .z ∨
          (raisedFrame (step + 1)).frameN = .x) := by
    decide
  exact (raised step (by omega) frames floats).elim

/-- FRAME# goes from 0 to Z, and the bystander stays in its busy state. -/
theorem abortedWrite_not_idle :
    UnselectedRun noCallbacks (pciRequestBus noCallbacks 1) abortedWrite
        (followSamples bystander abortedWrite) 7 ∧
      ¬ ∀ step, step < 7 → (abortedWrite step).frameN ≠ .zero →
        (followSamples bystander abortedWrite (step + 1)).targetState =
          .idle := by
  constructor
  · exact unselectedRun_followSamples rfl (by decide) (by decide +kernel)
  · decide +kernel

end Simbus.Pci
