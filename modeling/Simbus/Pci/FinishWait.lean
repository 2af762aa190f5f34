import Simbus.Pci.Break
import Simbus.Pci.Finish
import Simbus.Pci.Grant

/-!
# FINISH during a wait or a master operation

A FINISH in one of the clock loops of `simbus_pci_wait` ends the wait with its
documented result.  One that comes while the target machine serves a transaction
ends nothing, and no master operation ever returns after a FINISH: with the bus it
waits for an edge, without it its count of waits ends in a failed assertion.
-/

namespace Simbus.Pci

open FourValued Clocked

section

variable {User Handle : Type}

/-! ## What the server sends -/

section

variable {n : Nat}
variable {bus : PciBus n}
variable {proto proto' : PciProtocol n}

/-- A client that has not heard of the bus does not hold the grant. -/
theorem SimbusPci.init_synced
    (ident : Nat)
    (randomState : Nat → BitVec 32)
    (user : User) :
    (SimbusPci.init ident randomState user : SimbusPci User Handle).Synced :=
  nofun

end

/-! ## The clock loops of a wait -/

/-- The loops of `simbus_pci_wait` that look at the result. -/
def clockLoops : Call User Handle Int := do
  let rc ← exchangeWhileClk (fun clk => clk ≠ .zero) 0
  exchangeWhileClk (fun clk => clk ≠ .one) rc

/-- What a wait does after its clock loops. -/
def afterLoops
    (stateMachine : Call User Handle Unit)
    (rc : Int) : Call User Handle (Option Int) :=
  if rc < 0 then
    return some rc
  else do
    stateMachine
    let pci ← Program.getState
    if pci.device.breakFlag ∧ pci.targetState = .idle then
      return some simbusPciBreak
    else
      return none

variable {stateMachine : Call User Handle Unit}

theorem waitClock_eq :
    waitClock stateMachine = clockLoops >>= afterLoops stateMachine := by
  rw [clockLoops, bind_assoc]
  rfl

theorem exchangeWhileClk_heeds
    (condition : Logic4 → Bool)
    {rc : Int}
    (notYet : 0 ≤ rc)
    {pci : SimbusPci User Handle}
    (synced : pci.Synced) :
    AtPoints Reply.OnLevel
      (Heeds .finish fun rc pci =>
        rc = simbusPciFinished ∧ SimbusPci.Synced pci)
      (fun rc pci => 0 ≤ rc ∧ SimbusPci.Synced pci)
      ((exchangeWhileClk condition rc).start pci) := by
  have heeds : AtPoints Reply.OnLevel
      (Heeds .finish fun rc pci =>
        rc = simbusPciFinished ∧ SimbusPci.Synced pci)
      (fun rc pci => 0 ≤ rc ∧ SimbusPci.Synced pci ∧
        ¬ condition pci.pciClk = true)
      ((testedPoll (fun pci : SimbusPci User Handle =>
        condition pci.pciClk = true) sendReadyCommand rc).start pci) :=
    testedPoll_heeds sendReadyCommand_takes (by decide) synced notYet
  exact heeds.weaken (fun _ => id) fun _ _ reached => ⟨reached.1, reached.2.1⟩

/-- A loop that starts with a negative result ends at once. -/
theorem exchangeWhileClk_negative
    (condition : Logic4 → Bool)
    {rc : Int}
    (negative : rc < 0)
    (pci : SimbusPci User Handle) :
    (exchangeWhileClk condition rc).start pci = .finish rc pci := by
  have done : ¬ (condition pci.pciClk = true ∧ 0 ≤ rc) := by omega
  have ends : (testedPoll (fun pci : SimbusPci User Handle =>
      condition pci.pciClk = true) sendReadyCommand rc).start pci =
        .finish rc pci := testedPoll_start_done done
  exact ends

theorem clockLoops_heeds
    {pci : SimbusPci User Handle}
    (synced : pci.Synced) :
    AtPoints Reply.OnLevel
      (Heeds .finish fun rc pci =>
        rc = simbusPciFinished ∧ SimbusPci.Synced pci)
      (fun rc pci => 0 ≤ rc ∧ SimbusPci.Synced pci)
      (clockLoops.start pci) := by
  refine (exchangeWhileClk_heeds _ (Int.le_refl 0) synced).bind ?_ ?_
  · intro rest heeds
    refine heeds.bind ?_
    rintro rc state ⟨rfl, after⟩
    exact ⟨_, state, exchangeWhileClk_negative _ (by decide) state, rfl, after⟩
  · rintro rc state ⟨notYet, after⟩
    exact exchangeWhileClk_heeds _ notYet after

/-! ## One clock of a wait -/

/-- Where a clock of a wait is after some replies. -/
inductive ClockPoint
    (stateMachine : Call User Handle Unit)
    (pci : SimbusPci User Handle)
    (inputs : List Reply) : Prop where
  /-- In the clock loops, which a FINISH ends. -/
  | inLoops
      (now : SimbusPci User Handle)
      (loops : (clockLoops.start pci).run inputs = .waiting now)
      (waits : ((waitClock stateMachine).start pci).run inputs = .waiting now)
      (heeds : Heeds .finish
        (fun early pci => early = some simbusPciFinished ∧
          SimbusPci.Synced pci)
        (((waitClock stateMachine).start pci).resumeAll inputs))
  /-- In the target machine, which never returns after one. -/
  | inMachine
      (now : SimbusPci User Handle)
      (passed : ∀ state, (clockLoops.start pci).run inputs ≠ .waiting state)
      (waits : ((waitClock stateMachine).start pci).run inputs = .waiting now)
      (lost : Lost .finish
        (((waitClock stateMachine).start pci).resumeAll inputs))
  | ended
      (early : Option Int)
      (next : SimbusPci User Handle)
      (rest : List Reply)
      (passed : ∀ state, (clockLoops.start pci).run inputs ≠ .waiting state)
      (finished : ((waitClock stateMachine).start pci).run inputs =
        .finished early next rest)
      (synced : next.Synced)
  | failed
      (now : SimbusPci User Handle)
      (fails : ((waitClock stateMachine).start pci).run inputs = .failed now)

/-- What follows the clock loops is the target machine and then nothing. -/
theorem afterLoops_unheeding
    (unheeding : Unheeding stateMachine)
    {rc : Int}
    (notYet : 0 ≤ rc) :
    Unheeding (afterLoops stateMachine rc) := by
  rw [afterLoops, if_neg (Int.not_lt.mpr notYet)]
  refine .bind unheeding fun _ => .getState fun pci => ?_
  exact .ite (.pure _) (.pure _)

theorem waitClock_point
    (unheeding : Unheeding stateMachine)
    {pci : SimbusPci User Handle}
    (synced : pci.Synced)
    {inputs : List Reply}
    (onLevel : ∀ reply ∈ inputs, reply.OnLevel) :
    ClockPoint stateMachine pci inputs := by
  have loops := clockLoops_heeds synced inputs onLevel
  have clock : (waitClock stateMachine).start pci =
      (clockLoops.start pci).bind fun rc =>
        (afterLoops stateMachine rc).start := by
    rw [waitClock_eq, Program.start_bind]
  cases outcome : (clockLoops.start pci).run inputs with
  | waiting now =>
      have waits : ((waitClock stateMachine).start pci).run inputs =
          .waiting now := by
        simp only [clock, Behavior.bind, outcome]
      refine .inLoops now outcome waits ?_
      rw [clock, Behavior.resumeAll_bind_waiting outcome]
      refine (loops.waiting outcome).bind ?_
      rintro rc state ⟨rfl, after⟩
      exact ⟨some simbusPciFinished, state, rfl, rfl, after⟩
  | failed now =>
      refine .failed now ?_
      simp only [clock, Behavior.bind, outcome]
  | finished rc middle rest =>
      have passed (state : SimbusPci User Handle) :
          Outcome.finished rc middle rest ≠ .waiting state := by
        intro isWaiting
        cases isWaiting
      rw [AtPoint, outcome] at loops
      obtain ⟨notYet, after⟩ := loops
      obtain ⟨used, rfl, whole⟩ := Behavior.exists_used outcome
      have goesOn : ((waitClock stateMachine).start pci).run (used ++ rest) =
          ((afterLoops stateMachine rc).start middle).run rest := by
        simp only [clock, Behavior.bind, outcome]
      have onLevelRest (reply : Reply) (member : reply ∈ rest) :
          reply.OnLevel :=
        onLevel reply (List.mem_append_right used member)
      have atPoint := afterLoops_unheeding unheeding notYet 0 middle after rest
        onLevelRest
      rw [← outcome] at passed
      cases outcomeRest : ((afterLoops stateMachine rc).start middle).run rest with
      | waiting now =>
          refine .inMachine now passed (goesOn.trans outcomeRest) ?_
          rw [clock, Behavior.resumeAll_append, Behavior.resumeAll_bind _ whole]
          exact atPoint.waiting outcomeRest
      | failed now =>
          exact .failed now (goesOn.trans outcomeRest)
      | finished early next unread =>
          rw [AtPoint, outcomeRest] at atPoint
          obtain ⟨_, afterRest⟩ := atPoint
          exact .ended early next unread passed (goesOn.trans outcomeRest)
            afterRest

/-! ## The wait -/

/--
The replies end in the clock loops of a wait: some whole clocks have passed, and
the loops still wait.
-/
def InClockLoops
    (stateMachine : Call User Handle Unit)
    (pci : SimbusPci User Handle)
    (inputs : List Reply) : Prop :=
  ∃ replies states rest now,
    inputs = replies.flatten ++ rest ∧
    Turns (waitClock stateMachine) none pci replies states ∧
    (clockLoops.start (states.getLastD pci)).run rest = .waiting now

theorem InClockLoops.now
    {pci now : SimbusPci User Handle}
    {inputs : List Reply}
    (waits : (clockLoops.start pci).run inputs = .waiting now) :
    InClockLoops stateMachine pci inputs :=
  ⟨[], [], inputs, now, rfl, .none, waits⟩

/-- A clock that is not in its loops any more. -/
theorem InClockLoops.not_passed
    {pci now : SimbusPci User Handle}
    {inputs : List Reply}
    (waits : ((waitClock stateMachine).start pci).run inputs = .waiting now)
    (inLoops : InClockLoops stateMachine pci inputs) :
    ∃ state, (clockLoops.start pci).run inputs = .waiting state := by
  obtain ⟨replies, states, rest, state, rfl, turns, loops⟩ := inLoops
  cases turns with
  | none =>
      exact ⟨state, loops⟩
  | @turn _ _ _ _ others _ once _ =>
      have done := Behavior.run_finished_append once.run
        (others.flatten ++ rest)
      rw [List.flatten_cons, List.append_assoc, done] at waits
      cases waits

/-- The same after one more clock. -/
theorem InClockLoops.after_iff
    {pci next : SimbusPci User Handle}
    {used rest : List Reply}
    (passed : ∀ state, (clockLoops.start pci).run (used ++ rest) ≠
      .waiting state)
    (finished : ((waitClock stateMachine).start pci).run used =
      .finished none next []) :
    InClockLoops stateMachine pci (used ++ rest) ↔
      InClockLoops stateMachine next rest := by
  constructor
  · rintro ⟨replies, states, tail, now, split, turns, waits⟩
    cases turns with
    | none =>
        rw [List.flatten_nil, List.nil_append] at split
        rw [← split] at waits
        exact (passed now waits).elim
    | @turn _ middle first exchanges others states once turns =>
        rw [List.flatten_cons, List.append_assoc] at split
        have here := Behavior.run_finished_append finished rest
        have there := Behavior.run_finished_append once.run
          (others.flatten ++ tail)
        rw [split, there, Outcome.finished.injEq] at here
        obtain ⟨_, rfl, rfl⟩ := here
        exact ⟨others, states, tail, now, rfl, turns, by
          rw [List.getLastD_cons] at waits
          exact waits⟩
  · rintro ⟨replies, states, tail, now, rfl, turns, waits⟩
    obtain ⟨exchanges, once⟩ := returns_of_run finished
    refine ⟨used :: replies, next :: states, tail, now, ?_,
      .turn once turns, ?_⟩
    · rw [List.flatten_cons, List.append_assoc]
    · rw [List.getLastD_cons]
      exact waits

/--
A FINISH that comes while a wait goes on ends it at once if it comes in the clock
loops, and never otherwise.
-/
theorem waitLoop_point
    (unheeding : Unheeding stateMachine)
    {useIrq : BitVec 64}
    {clks : Nat}
    {mask : BitVec 64}
    {pci now : SimbusPci User Handle}
    (synced : pci.Synced)
    {inputs : List Reply}
    (onLevel : ∀ reply ∈ inputs, reply.OnLevel)
    (waits : ((waitLoop stateMachine useIrq clks mask).start pci).run inputs =
      .waiting now) :
    InClockLoops stateMachine pci inputs ∧
        Heeds .finish
          (fun result pci => result = .error simbusPciFinished ∧
            SimbusPci.Synced pci)
          (((waitLoop stateMachine useIrq clks mask).start pci).resumeAll
            inputs) ∨
      ¬ InClockLoops stateMachine pci inputs ∧
        Lost .finish
          (((waitLoop stateMachine useIrq clks mask).start pci).resumeAll
            inputs) := by
  induction clks generalizing mask pci inputs with
  | zero =>
      cases waits
  | succ clks inductionHypothesis =>
      by_cases missed : mask &&& useIrq = 0
      · rw [waitLoop_clock missed] at waits ⊢
        cases waitClock_point unheeding synced onLevel with
        | inLoops here loops waitsHere heeds =>
            left
            refine ⟨.now loops, ?_⟩
            rw [Behavior.resumeAll_bind_waiting waitsHere]
            refine heeds.bind ?_
            rintro early state ⟨rfl, after⟩
            exact ⟨.error simbusPciFinished, state, rfl, rfl, after⟩
        | inMachine here passed waitsHere lost =>
            right
            constructor
            · intro inLoops
              obtain ⟨state, loops⟩ := inLoops.not_passed waitsHere
              exact passed state loops
            · rw [Behavior.resumeAll_bind_waiting waitsHere]
              exact lost.bind _
        | ended early next rest passed finished syncedNext =>
            obtain ⟨used, rfl, done⟩ := Behavior.exists_used finished
            have goesOn : (((waitClock stateMachine).start pci).bind
                fun early => (waitNext stateMachine useIrq clks early).start).run
                  (used ++ rest) =
                ((waitNext stateMachine useIrq clks early).start next).run
                  rest := by
              simp only [Behavior.bind, finished]
            rw [goesOn] at waits
            cases early with
            | some rc =>
                cases waits
            | none =>
                rw [InClockLoops.after_iff passed done,
                  Behavior.resumeAll_append, Behavior.resumeAll_bind _ done]
                exact inductionHypothesis syncedNext
                  (fun reply member =>
                    onLevel reply (List.mem_append_right used member)) waits
        | failed here fails =>
            simp only [Behavior.bind, fails] at waits
            cases waits
      · rw [waitLoop_found missed] at waits
        cases waits

/-- The result of `simbus_pci_wait` for that of its loop. -/
def waitReport
    (irq : Option (BitVec 64)) :
    Except Int (BitVec 64) → Int × Option (BitVec 64)
  | .error rc => (rc, irq)
  | .ok mask => (waitResult mask, irq.map (· &&& mask))

theorem simbusPciWaitWith_start
    {clks : Nat}
    (clocked : clks ≠ 0)
    (irq : Option (BitVec 64))
    (pci : SimbusPci User Handle) :
    (simbusPciWaitWith stateMachine clks irq).start pci =
      ((waitLoop stateMachine (irq.getD 0) clks 0).start pci.withoutBreak).bind
        fun result => .finish (waitReport irq result) := by
  rw [simbusPciWaitWith, if_neg clocked, Program.start_bind,
    Program.start_modifyState, Behavior.finish_bind, Program.start_bind]
  congr 1
  funext result state
  cases result <;> rfl

/-- The wait of a user, in the same words. -/
theorem simbusPciWaitWith_point
    (unheeding : Unheeding stateMachine)
    {clks : Nat}
    {irq : Option (BitVec 64)}
    {pci now : SimbusPci User Handle}
    (synced : pci.Synced)
    {inputs : List Reply}
    (onLevel : ∀ reply ∈ inputs, reply.OnLevel)
    (waits : ((simbusPciWaitWith stateMachine clks irq).start pci).run inputs =
      .waiting now) :
    InClockLoops stateMachine pci.withoutBreak inputs ∧
        Heeds .finish (fun result _ => result = (simbusPciFinished, irq))
          (((simbusPciWaitWith stateMachine clks irq).start pci).resumeAll
            inputs) ∨
      ¬ InClockLoops stateMachine pci.withoutBreak inputs ∧
        Lost .finish
          (((simbusPciWaitWith stateMachine clks irq).start pci).resumeAll
            inputs) := by
  by_cases clocked : clks = 0
  · rw [simbusPciWaitWith, if_pos clocked] at waits
    cases waits
  · rw [simbusPciWaitWith_start clocked] at waits ⊢
    have loopWaits : ∃ state,
        ((waitLoop stateMachine (irq.getD 0) clks 0).start
          pci.withoutBreak).run inputs = .waiting state := by
      cases outcome : ((waitLoop stateMachine (irq.getD 0) clks 0).start
          pci.withoutBreak).run inputs with
      | waiting state =>
          exact ⟨state, rfl⟩
      | finished result state rest =>
          simp only [Behavior.bind, outcome] at waits
          cases waits
      | failed state =>
          simp only [Behavior.bind, outcome] at waits
          cases waits
    obtain ⟨state, loopWaits⟩ := loopWaits
    rw [Behavior.resumeAll_bind_waiting loopWaits]
    have syncedNow : pci.withoutBreak.Synced := synced
    rcases waitLoop_point unheeding syncedNow onLevel loopWaits with
      ⟨inLoops, heeds⟩ | ⟨outside, lost⟩
    · refine .inl ⟨inLoops, heeds.bind ?_⟩
      rintro result final ⟨rfl, _⟩
      exact ⟨_, final, rfl, rfl⟩
    · exact .inr ⟨outside, lost.bind _⟩

/-! ## Requests for the bus -/

/-- A wait that a FINISH ends leaves the clock and the grant alone. -/
def LeavesSynced {Value : Type} (call : Call User Handle Value) : Prop :=
  ∀ pci, pci.Synced →
    AtPoints Reply.OnLevel (Deserted .finish fun _ => SimbusPci.Synced)
      (fun _ => SimbusPci.Synced) (call.start pci)

theorem waitClock_leavesSynced
    (unheeding : Unheeding stateMachine) :
    LeavesSynced (waitClock stateMachine) := by
  intro pci synced inputs onLevel
  cases waitClock_point unheeding synced onLevel with
  | inLoops now _ waits heeds =>
      rw [AtPoint, waits]
      have waitsNow := Behavior.run_resumeAll waits []
      rw [List.append_nil, waits] at waitsNow
      exact (heeds.deserted waitsNow).weaken (fun _ => id) (fun _ => id)
        fun _ _ => And.right
  | inMachine now _ waits lost =>
      rw [AtPoint, waits]
      exact lost.weaken (fun _ => id) (fun _ => id) fun _ _ => False.elim
  | ended early next rest _ finished syncedNext =>
      rw [AtPoint, finished]
      exact syncedNext
  | failed now fails =>
      rw [AtPoint, fails]
      trivial

theorem LeavesSynced.bind
    {Value Result : Type}
    {call : Call User Handle Value}
    {next : Value → Call User Handle Result}
    (first : LeavesSynced call)
    (later : ∀ value, LeavesSynced (next value)) :
    LeavesSynced (call >>= next) := by
  intro pci synced
  refine (first pci synced).bind ?_ fun value => later value
  intro rest deserted
  refine deserted.bind fun value state after => ?_
  exact .of_atPoints (later value state after) fun _ _ => id

theorem LeavesSynced.pure
    {Value : Type}
    (value : Value) :
    LeavesSynced (Pure.pure value : Call User Handle Value) :=
  fun _ synced => atPoints_finish synced

theorem waitLoop_leavesSynced
    (unheeding : Unheeding stateMachine)
    (useIrq : BitVec 64)
    (clks : Nat)
    (mask : BitVec 64) :
    LeavesSynced (waitLoop stateMachine useIrq clks mask) := by
  induction clks generalizing mask with
  | zero =>
      exact .pure _
  | succ clks inductionHypothesis =>
      intro pci synced
      by_cases missed : mask &&& useIrq = 0
      · rw [waitLoop_clock missed]
        refine LeavesSynced.bind (waitClock_leavesSynced unheeding) ?_ pci synced
        rintro (_ | rc) next syncedNext
        · exact inductionHypothesis _ next syncedNext
        · exact atPoints_finish syncedNext
      · rw [waitLoop_found missed]
        exact atPoints_finish synced

theorem simbusPciWaitWith_leavesSynced
    (unheeding : Unheeding stateMachine)
    {clks : Nat}
    (clocked : clks ≠ 0)
    (irq : Option (BitVec 64)) :
    LeavesSynced (simbusPciWaitWith stateMachine clks irq) := by
  intro pci synced
  rw [simbusPciWaitWith_start clocked]
  exact LeavesSynced.bind (waitLoop_leavesSynced unheeding _ clks 0)
    (fun result => .pure (waitReport irq result)) pci.withoutBreak synced

/-- Whoever is not kept waiting any more has the bus. -/
theorem SimbusPci.Synced.atLevel
    {pci : SimbusPci User Handle}
    (synced : pci.Synced)
    (ready : ¬ busNotReady pci) :
    pci.AtLevel := by
  rw [busNotReady, not_or, not_not] at ready
  exact synced ready.1

/-- Without the bus the count runs down to the failed assertion. -/
theorem requestLoop_deserted
    (unheeding : Unheeding stateMachine)
    (count : Nat)
    {pci : SimbusPci User Handle}
    (synced : pci.Synced) :
    Deserted .finish (fun _ => SimbusPci.AtLevel)
      ((requestLoop stateMachine count).start pci) := by
  induction count generalizing pci with
  | zero =>
      exact safe_fail.mpr trivial
  | succ count inductionHypothesis =>
      rw [requestLoop, Program.start_bind, Program.start_getState,
        Behavior.finish_bind]
      by_cases notReady : busNotReady pci
      · rw [if_pos notReady]
        have wait := simbusPciWaitWith_leavesSynced unheeding
          (Nat.one_ne_zero) none pci synced
        refine Deserted.bind (.of_atPoints wait fun _ _ => id) ?_
        exact fun _ _ => inductionHypothesis
      · rw [if_neg notReady]
        exact safe_finish.mpr (synced.atLevel notReady)

theorem requestLoop_opens
    (unheeding : Unheeding stateMachine)
    (count : Nat) :
    Opens (requestLoop stateMachine count) := by
  induction count with
  | zero =>
      exact fun pci _ inputs _ => atPoint_fail pci inputs
  | succ count inductionHypothesis =>
      intro pci synced
      rw [requestLoop, Program.start_bind, Program.start_getState,
        Behavior.finish_bind]
      by_cases notReady : busNotReady pci
      · rw [if_pos notReady]
        have wait := simbusPciWaitWith_leavesSynced unheeding
          (Nat.one_ne_zero) none pci synced
        refine wait.bind (fun _ deserted => ?_) fun _ => inductionHypothesis
        exact deserted.bind fun _ _ => requestLoop_deserted unheeding count
      · rw [if_neg notReady]
        exact atPoints_finish synced

theorem requestBusWith_opens
    (unheeding : Unheeding stateMachine) :
    Opens (requestBusWith stateMachine) := by
  intro pci synced
  have loop := requestLoop_opens unheeding requestCount
    { pci with outReqN := .zero } synced
  refine loop.bind (fun _ deserted => ?_) fun _ _ after => atPoints_finish after
  refine deserted.bind fun _ state level => ?_
  exact safe_finish.mpr level

/-- Nested requests are an induction on the depth. -/
theorem pciRequestBus_opens
    (callbacks : Callbacks User Handle)
    (stack : Nat) :
    Opens (pciRequestBus callbacks stack) := by
  induction stack with
  | zero =>
      exact fun pci _ inputs _ => atPoint_fail pci inputs
  | succ stack inductionHypothesis =>
      exact requestBusWith_opens
        (pciTargetStateMachine_unheeding callbacks inductionHypothesis)

/-! ## Master operations -/

section Masters

theorem driveReqN_unheeding (level : Logic4) :
    Unheeding (driveReqN level : Call User Handle Unit) :=
  .unseen (fun _ => rfl) fun _ => rfl

theorem attributePhase_unheeding (ben : BitVec 32) :
    Unheeding (attributePhase ben : Call User Handle Unit) := by
  refine .getState fun pci => .ite (.getState fun pci => ?_) (.pure _)
  refine .bind (.drive _) fun _ => .bind (.drive _) fun _ => ?_
  refine .bind pciNextPosedge_unheeding fun _ => ?_
  exact .bind (.drive _) fun _ => pciNextPosedge_unheeding

theorem dualAddressPhase_unheeding (addrHigh : BitVec 32) :
    Unheeding (dualAddressPhase addrHigh : Call User Handle Unit) := by
  refine .ite (.bind (.drive _) fun _ => ?_) (.pure _)
  exact .bind pciNextPosedge_unheeding fun _ => .drive _

theorem addressCommand_unheeding
    (addr : BitVec 64)
    (cmd ben : BitVec 32)
    (flag64 burst : Bool) :
    Unheeding
      (addressCommand addr cmd ben flag64 burst : Call User Handle Unit) := by
  refine .bind (.drive _) fun _ => .bind (.drive _) fun _ => ?_
  refine .bind (dualAddressPhase_unheeding _) fun _ => ?_
  refine .bind (.drive _) fun _ => .bind pciNextPosedge_unheeding fun _ => ?_
  refine .bind (attributePhase_unheeding _) fun _ => ?_
  exact .unseen (fun _ => rfl) fun _ => rfl

/-- The address phase ends with an edge, with or without a dual address. -/
theorem addressCommand_lost
    (addr : BitVec 64)
    (cmd ben : BitVec 32)
    (flag64 burst : Bool) :
    LostFrom
      (addressCommand addr cmd ben flag64 burst : Call User Handle Unit) := by
  refine .afterDrive (.afterDrive ?_)
  unfold dualAddressPhase
  split
  · rw [bind_assoc]
    refine .afterDrive ?_
    rw [bind_assoc]
    exact pciNextPosedge_lost.bind _
  · rw [pure_bind]
    exact .afterDrive (pciNextPosedge_lost.bind _)

variable (callbacks : Callbacks User Handle)
variable (stack : Nat)

theorem startTransaction_unheeding
    (addr : BitVec 64)
    (cmd ben : BitVec 32)
    (flag64 burst : Bool) :
    Unheeding
      (startTransaction callbacks stack addr cmd ben flag64 burst) := by
  refine (pciRequestBus_opens callbacks stack).bind ?_ ?_
  · exact .after (addressCommand_lost _ _ _ _ _) fun _ => rfl
  · exact .bind (driveReqN_unheeding _) fun _ =>
      addressCommand_unheeding _ _ _ _ _

theorem devselWithin_unheeding (clks : Nat) :
    Unheeding (devselWithin clks : Call User Handle Bool) := by
  induction clks with
  | zero =>
      exact .getState fun pci => .pure _
  | succ clks inductionHypothesis =>
      refine .getState fun pci => .ite (.pure _) ?_
      exact .bind pciNextPosedge_unheeding fun _ => inductionHypothesis

theorem acceptAck64_unheeding :
    Unheeding
      (Program.modifyState acceptAck64 : Call User Handle Unit) := by
  refine .unseen (fun pci => ?_) fun pci => ?_
  · unfold acceptAck64
    split <;> rfl
  · unfold acceptAck64
    split <;> rfl

theorem waitForDevsel_unheeding :
    Unheeding (waitForDevsel : Call User Handle Int) := by
  refine .bind (devselWithin_unheeding 3) fun selected => .ite ?_ ?_
  · exact .bind acceptAck64_unheeding fun _ => .pure _
  · exact .bind (.drive _) fun _ => .pure _

theorem waitForReadLoop_unheeding (count : Nat) :
    Unheeding
      (waitForReadLoop count : Call User Handle (Except Int ReadWord)) := by
  induction count with
  | zero =>
      exact Deaf.abort
  | succ count inductionHypothesis =>
      refine .getState fun pci => .ite (.ite (.pure _) ?_) (.pure _)
      exact .bind pciNextPosedge_unheeding fun _ => inductionHypothesis

theorem setupForWrite_unheeding
    (val : BitVec 64)
    (ben : BitVec 32)
    (flag64 : Bool) :
    Unheeding (setupForWrite val ben flag64 : Call User Handle Unit) :=
  .bind (.drive _) fun _ => pciNextPosedge_unheeding

theorem releaseBus_unheeding :
    Unheeding (releaseBus : Call User Handle Unit) :=
  .bind (.drive _) fun _ => pciNextPosedge_unheeding

theorem pcixEndRead_unheeding :
    Unheeding (pcixEndRead : Call User Handle Unit) := by
  refine .getState fun pci => .ite ?_ (.pure _)
  refine .bind pciNextPosedge_unheeding fun _ => ?_
  exact .bind (.drive _) fun _ => pciNextPosedge_unheeding

theorem genericPciRead32_unheeding
    (addr : BitVec 64)
    (cmd ben resultx : BitVec 32) :
    Unheeding
      (genericPciRead32 callbacks stack addr cmd ben resultx) := by
  refine .bind (startTransaction_unheeding _ _ _ _ _ _ _) fun _ => ?_
  refine .bind (.drive _) fun _ => .bind pciNextPosedge_unheeding fun _ => ?_
  refine .bind waitForDevsel_unheeding fun rc => .ite ?_ ?_
  · refine .bind (.drive _) fun _ => ?_
    exact .bind pciNextPosedge_unheeding fun _ => .pure _
  · refine .bind (.unseen (fun _ => rfl) fun _ => rfl) fun _ => ?_
    refine .bind (waitForReadLoop_unheeding 256) fun result => ?_
    cases result with
    | error rc =>
        exact .bind releaseBus_unheeding fun _ => .pure _
    | ok word =>
        refine .bind pcixEndRead_unheeding fun _ => ?_
        exact .bind releaseBus_unheeding fun _ => .pure _

theorem genericPciWrite32_unheeding
    (addr : BitVec 64)
    (cmd val ben : BitVec 32) :
    Unheeding (genericPciWrite32 callbacks stack addr cmd val ben) := by
  refine .bind (startTransaction_unheeding _ _ _ _ _ _ _) fun _ => ?_
  refine .bind (setupForWrite_unheeding _ _ _) fun _ => ?_
  refine .bind waitForDevsel_unheeding fun rc => .ite (.pure _) ?_
  refine .bind pciNextPosedgeUntilTrdy_unheeding fun _ => ?_
  exact .bind releaseBus_unheeding fun _ => .pure _

theorem simbusPciRead32_unheeding
    (addr : BitVec 64)
    (ben : BitVec 32) :
    Unheeding (simbusPciRead32 callbacks stack addr ben) := by
  refine .bind (Deaf.loop (fun valx => ?_) _) fun result => .pure _
  refine .bind (genericPciRead32_unheeding _ _ _ _ _ _) fun result => ?_
  exact .ite (.pure _) (.ite (.pure _) (.pure _))

theorem simbusPciWrite32_unheeding
    (addr : BitVec 64)
    (val ben : BitVec 32) :
    Unheeding (simbusPciWrite32 callbacks stack addr val ben) :=
  .bind (genericPciWrite32_unheeding _ _ _ _ _ _) fun _ => .pure _

theorem writeBurstRest_unheeding
    (beLn : BitVec 32)
    (words : List (BitVec 32)) :
    Unheeding (writeBurstRest beLn words : Call User Handle Nat) := by
  induction words with
  | nil =>
      exact .pure _
  | cons val rest inductionHypothesis =>
      refine .bind (.drive _) fun _ => ?_
      refine .bind (setupForWrite_unheeding _ _ _) fun _ => ?_
      refine .bind pciNextPosedgeUntilTrdy_unheeding fun _ => ?_
      refine .getState fun pci => .ite ?_ inductionHypothesis
      refine .bind (.drive _) fun _ => ?_
      exact .bind pciNextPosedge_unheeding fun _ => .pure _

theorem simbusPciWrite32b_unheeding
    (addr : BitVec 64)
    (words : List (BitVec 32))
    (beFn beLn : BitVec 32) :
    Unheeding (simbusPciWrite32b callbacks stack addr words beFn beLn) := by
  match words with
  | [] =>
      exact Deaf.abort
  | [val] =>
      refine .bind (Deaf.assert _) fun _ => ?_
      exact .bind (simbusPciWrite32_unheeding _ _ _ _ _) fun _ => .pure _
  | val :: next :: rest =>
      refine .bind (startTransaction_unheeding _ _ _ _ _ _ _) fun _ => ?_
      refine .bind (setupForWrite_unheeding _ _ _) fun _ => ?_
      refine .bind waitForDevsel_unheeding fun rc => .ite (.pure _) ?_
      refine .bind pciNextPosedgeUntilTrdy_unheeding fun _ => ?_
      refine .bind (writeBurstRest_unheeding _ _) fun remain => ?_
      exact .bind releaseBus_unheeding fun _ => .pure _

theorem read64Attempt_unheeding
    (addr : BitVec 64)
    (ben : BitVec 32) :
    Unheeding (read64Attempt callbacks stack addr ben) := by
  refine .bind (startTransaction_unheeding _ _ _ _ _ _ _) fun _ => ?_
  refine .bind (.drive _) fun _ => ?_
  refine .bind waitForDevsel_unheeding fun rc => .ite (.pure _) ?_
  refine .bind (waitForReadLoop_unheeding 256) fun result => ?_
  cases result with
  | error rc =>
      exact .bind releaseBus_unheeding fun _ => .pure _
  | ok word =>
      refine .getState fun pci => .ite (.pure _) ?_
      refine .bind (.drive _) fun _ => ?_
      refine .bind pciNextPosedge_unheeding fun _ => ?_
      refine .bind (waitForReadLoop_unheeding 256) fun result => ?_
      cases result with
      | error rc =>
          exact Deaf.abort
      | ok high =>
          exact .pure _

theorem simbusPciRead64_unheeding
    (addr : BitVec 64)
    (ben : BitVec 32) :
    Unheeding (simbusPciRead64 callbacks stack addr ben) := by
  refine .bind (Deaf.loop (fun _ => read64Attempt_unheeding _ _ _ _) _)
    fun result => ?_
  cases result with
  | error val =>
      exact .pure _
  | ok val =>
      exact .bind releaseBus_unheeding fun _ => .pure _

theorem simbusPciWrite64_unheeding
    (addr val : BitVec 64)
    (ben : BitVec 32) :
    Unheeding (simbusPciWrite64 callbacks stack addr val ben) := by
  refine .bind (startTransaction_unheeding _ _ _ _ _ _ _) fun _ => ?_
  refine .bind (setupForWrite_unheeding _ _ _) fun _ => ?_
  refine .bind waitForDevsel_unheeding fun rc => .ite (.pure _) ?_
  refine .bind pciNextPosedgeUntilTrdy_unheeding fun _ => ?_
  refine .getState fun pci => .ite releaseBus_unheeding ?_
  refine .bind (.drive _) fun _ => ?_
  refine .bind (setupForWrite_unheeding _ _ _) fun _ => ?_
  exact .bind pciNextPosedgeUntilTrdy_unheeding fun _ => releaseBus_unheeding

theorem write64bFrom_unheeding
    (beFn beLn : BitVec 32)
    (first : Bool)
    (addr : BitVec 64)
    (words : List (BitVec 64)) :
    Unheeding
      (write64bFrom callbacks stack beFn beLn first addr words) := by
  induction words generalizing first addr with
  | nil =>
      exact .pure _
  | cons val rest inductionHypothesis =>
      exact .bind (simbusPciWrite64_unheeding _ _ _ _ _) fun _ =>
        inductionHypothesis false (addr + 4)

/-- A master operation of any user; its result does not matter here. -/
def MasterOperation.perform : MasterOperation → Call User Handle Unit
  | .read32 addr ben => do
      let _ ← simbusPciRead32 callbacks stack addr ben
  | .write32 addr val ben => simbusPciWrite32 callbacks stack addr val ben
  | .write32b addr words beFn beLn => do
      let _ ← simbusPciWrite32b callbacks stack addr words beFn beLn
  | .read64 addr ben => do
      let _ ← simbusPciRead64 callbacks stack addr ben
  | .write64 addr val ben => simbusPciWrite64 callbacks stack addr val ben
  | .write64b addr words beFn beLn => do
      let _ ← simbusPciWrite64b callbacks stack addr words beFn beLn
  | .configRead dfn dwAddr => do
      let _ ← simbusPciConfigRead callbacks stack dfn dwAddr
  | .configWrite dfn dwAddr val ben =>
      simbusPciConfigWrite callbacks stack dfn dwAddr val ben

theorem MasterOperation.perform_unheeding (operation : MasterOperation) :
    Unheeding (operation.perform callbacks stack) := by
  cases operation with
  | read32 addr ben =>
      exact .bind (simbusPciRead32_unheeding _ _ _ _) fun _ => .pure _
  | write32 addr val ben =>
      exact simbusPciWrite32_unheeding _ _ _ _ _
  | write32b addr words beFn beLn =>
      exact .bind (simbusPciWrite32b_unheeding _ _ _ _ _ _) fun _ => .pure _
  | read64 addr ben =>
      exact .bind (simbusPciRead64_unheeding _ _ _ _) fun _ => .pure _
  | write64 addr val ben =>
      exact simbusPciWrite64_unheeding _ _ _ _ _
  | write64b addr words beFn beLn =>
      refine .bind ?_ fun _ => .pure _
      refine .bind (Deaf.assert _) fun _ => .bind (Deaf.assert _) fun _ => ?_
      exact .bind (write64bFrom_unheeding _ _ _ _ _ _ _) fun _ => .pure _
  | configRead dfn dwAddr =>
      refine .bind ?_ fun _ => .pure _
      exact .bind (genericPciRead32_unheeding _ _ _ _ _ _) fun _ => .pure _
  | configWrite dfn dwAddr val ben =>
      exact .bind (genericPciWrite32_unheeding _ _ _ _ _ _) fun _ => .pure _

end Masters

end

end Simbus.Pci
