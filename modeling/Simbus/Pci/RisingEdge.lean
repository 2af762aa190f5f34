import Simbus.Clocked.Guarantee
import Simbus.Pci.ClockCycles
import Simbus.Pci.Master

/-!
# A client stays at a rising edge

The library knows the clock from the UNTIL messages only, and nothing that it does
between them changes what it knows.  So after a run over whole cycles a client is
at a rising edge again, whatever the run was of.
-/

namespace Simbus.Pci

open FourValued Clocked

section

variable {User Handle Value Result : Type}

/-- The clock of the last UNTIL. -/
def clockSeen (User Handle : Type) : Monitor (SimbusPci User Handle) Reply where
  Phase := Logic4
  check := fun _ _ => True
  advance := fun before _ reply after =>
    match reply with
    | .until signals => after = signals.pciClk
    | .finish => after = before

/-- A call knows the clock of the last UNTIL, and no other one. -/
abbrev FollowsClock (call : Call User Handle Value) : Prop :=
  Keeps (clockSeen User Handle) (fun clk pci => pci.pciClk = clk) call

/-! ## Rules -/

namespace FollowsClock

theorem pure (value : Value) :
    FollowsClock (Pure.pure value : Call User Handle Value) :=
  Keeps.pure value

theorem bind
    {call : Call User Handle Value}
    {next : Value → Call User Handle Result}
    (first : FollowsClock call)
    (later : ∀ value, FollowsClock (next value)) :
    FollowsClock (call >>= next) :=
  Keeps.bind first later

theorem loop
    {Local : Type}
    {body : Local → Call User Handle (Local ⊕ Result)}
    (turn : ∀ current, FollowsClock (body current))
    (current : Local) :
    FollowsClock (Program.loop body current) :=
  Keeps.loop turn current

theorem whileDo
    {condition : SimbusPci User Handle → Bool}
    {body : Call User Handle Unit}
    (turn : FollowsClock body) :
    FollowsClock (Program.whileDo condition body) :=
  Keeps.whileDo turn

theorem getState
    {next : SimbusPci User Handle → Call User Handle Value}
    (reads : ∀ pci, FollowsClock (next pci)) :
    FollowsClock (Program.getState >>= next) :=
  Keeps.getState fun pci _ _ => reads pci

theorem ite
    {condition : Prop}
    [Decidable condition]
    {yes no : Call User Handle Value}
    (first : FollowsClock yes)
    (second : FollowsClock no) :
    FollowsClock (if condition then yes else no) :=
  Triple.ite (fun _ => first) fun _ => second

theorem abort : FollowsClock (Program.abort : Call User Handle Value) :=
  Triple.abort

/-- A change of the client that leaves what it knows of the clock alone. -/
theorem unseen
    {change : SimbusPci User Handle → SimbusPci User Handle}
    (sameClk : ∀ pci, (change pci).pciClk = pci.pciClk) :
    FollowsClock (Program.modifyState change) :=
  Triple.modifyState fun _ pci knows => (sameClk pci).trans knows

theorem assert (condition : SimbusPci User Handle → Bool) :
    FollowsClock (Program.assert condition) :=
  Triple.assert fun _ _ knows _ => knows

end FollowsClock

/-! ## Edges -/

theorem sendReadyCommand_followsClock :
    FollowsClock (sendReadyCommand : Call User Handle Int) := by
  intro clk pci knows
  refine meets_await.mpr ⟨trivial, fun reply later advances => ?_⟩
  cases reply with
  | finish =>
      exact meets_finish.mpr (knows.trans (Eq.symm advances))
  | «until» signals =>
      exact meets_finish.mpr (Eq.symm advances)

theorem pciNextPosedge_followsClock :
    FollowsClock (pciNextPosedge : Call User Handle Unit) := by
  refine .bind (.whileDo ?_) fun _ => ?_
  · exact .bind sendReadyCommand_followsClock fun _ => .pure _
  refine .bind (.whileDo ?_) fun _ => .unseen fun _ => rfl
  exact .bind sendReadyCommand_followsClock fun _ => .pure _

theorem pciNextPosedgeUntilIrdy_followsClock :
    FollowsClock (pciNextPosedgeUntilIrdy : Call User Handle Unit) :=
  .bind pciNextPosedge_followsClock fun _ =>
    .whileDo pciNextPosedge_followsClock

theorem pcixNextPosedge_followsClock :
    FollowsClock (pcixNextPosedge : Call User Handle Unit) :=
  .getState fun _ => .ite pciNextPosedge_followsClock (.pure _)

theorem pciNextPosedges_followsClock (count : Nat) :
    FollowsClock (pciNextPosedges count : Call User Handle Unit) := by
  induction count with
  | zero =>
      exact .pure _
  | succ count inductionHypothesis =>
      exact .bind pciNextPosedge_followsClock fun _ => inductionHypothesis

theorem drive_followsClock (change : BiSignals → BiSignals) :
    FollowsClock (drive change : Call User Handle Unit) :=
  .unseen fun _ => rfl

theorem setTargetState_followsClock (state : TargetState) :
    FollowsClock (setTargetState state : Call User Handle Unit) :=
  .unseen fun _ => rfl

theorem chooseToRetry_followsClock (flag : BitVec 32) (bar : Fin 8) :
    FollowsClock (chooseToRetry flag bar : Call User Handle Bool) := by
  refine .getState fun _ => .ite (.pure _) (.ite (.pure _) ?_)
  refine .bind (.getState fun _ => ?_) fun _ => .pure _
  exact .bind (.unseen fun _ => rfl) fun _ => .pure _

theorem exchangeWhileClk_followsClock
    (condition : Logic4 → Bool)
    (rc : Int) :
    FollowsClock
      (exchangeWhileClk condition rc : Call User Handle Int) := by
  refine .loop (fun rc => .getState fun _ => .ite ?_ (.pure _)) rc
  exact .bind sendReadyCommand_followsClock fun _ => .pure _

/-! ## The target machine -/

variable (callbacks : Callbacks User Handle)

theorem callNeed32_followsClock
    (handle : Handle)
    (addr : BitVec 64)
    (ben : BitVec 32) :
    FollowsClock (callNeed32 callbacks handle addr ben) :=
  .getState fun _ => .bind (.unseen fun _ => rfl) fun _ => .pure _

theorem callNeed32OrElse_followsClock
    (need32 : Option Handle)
    (addr : BitVec 64)
    (ben otherwise : BitVec 32) :
    FollowsClock (callNeed32OrElse callbacks need32 addr ben otherwise) := by
  cases need32 with
  | none =>
      exact .pure _
  | some handle =>
      exact callNeed32_followsClock callbacks handle addr ben

theorem callNeed32OrFail_followsClock
    (need32 : Option Handle)
    (addr : BitVec 64)
    (ben : BitVec 32) :
    FollowsClock (callNeed32OrFail callbacks need32 addr ben) := by
  cases need32 with
  | none =>
      exact .abort
  | some handle =>
      exact callNeed32_followsClock callbacks handle addr ben

theorem callRecv32IfAny_followsClock
    (recv32 : Option Handle)
    (addr : BitVec 64)
    (val ben : BitVec 32) :
    FollowsClock (callRecv32IfAny callbacks recv32 addr val ben) := by
  cases recv32 with
  | none =>
      exact .pure _
  | some handle =>
      exact .unseen fun _ => rfl

theorem doTargetConfigRead_followsClock :
    FollowsClock (doTargetConfigRead callbacks) := by
  refine .getState fun _ => ?_
  refine .bind (callNeed32OrElse_followsClock callbacks _ _ _ _) fun _ => ?_
  refine .bind (drive_followsClock _) fun _ => ?_
  refine .bind pciNextPosedge_followsClock fun _ => ?_
  refine .bind (drive_followsClock _) fun _ => ?_
  refine .bind pciNextPosedgeUntilIrdy_followsClock fun _ => ?_
  refine .bind (drive_followsClock _) fun _ => ?_
  refine .bind pciNextPosedge_followsClock fun _ => ?_
  exact .bind (drive_followsClock _) fun _ => setTargetState_followsClock .idle

theorem doTargetConfigWrite_followsClock :
    FollowsClock (doTargetConfigWrite callbacks) := by
  refine .bind (.assert _) fun _ => .getState fun _ => ?_
  refine .bind (drive_followsClock _) fun _ => ?_
  refine .bind pciNextPosedgeUntilIrdy_followsClock fun _ => ?_
  refine .getState fun _ => ?_
  refine .bind (callRecv32IfAny_followsClock callbacks _ _ _ _) fun _ => ?_
  refine .bind (drive_followsClock _) fun _ => ?_
  refine .bind pciNextPosedge_followsClock fun _ => ?_
  exact .bind (drive_followsClock _) fun _ => setTargetState_followsClock .idle

theorem doTargetMemoryRwRetry_followsClock :
    FollowsClock (doTargetMemoryRwRetry : Call User Handle Unit) := by
  refine .bind pcixNextPosedge_followsClock fun _ => ?_
  refine .bind (drive_followsClock _) fun _ => ?_
  refine .bind pcixNextPosedge_followsClock fun _ => ?_
  refine .bind (drive_followsClock _) fun _ => ?_
  refine .bind pciNextPosedge_followsClock fun _ => ?_
  refine .bind (drive_followsClock _) fun _ => ?_
  refine .bind pciNextPosedge_followsClock fun _ => ?_
  refine .bind (drive_followsClock _) fun _ => ?_
  exact .bind pciNextPosedge_followsClock fun _ =>
    setTargetState_followsClock .idle

theorem splitCompletionWords_followsClock
    (bar : Fin 8)
    (wordCount : Nat)
    (useAddr : BitVec 64) :
    FollowsClock (splitCompletionWords callbacks bar wordCount useAddr) := by
  induction wordCount generalizing useAddr with
  | zero =>
      exact .pure _
  | succ wordCount inductionHypothesis =>
      refine .bind (drive_followsClock _) fun _ => .getState fun _ => ?_
      refine .bind (callNeed32OrFail_followsClock callbacks _ _ _) fun _ => ?_
      refine .bind (drive_followsClock _) fun _ => ?_
      exact .bind pciNextPosedge_followsClock fun _ =>
        inductionHypothesis (useAddr + 4)

theorem doTargetMemoryReadSplit_followsClock
    {requestBus : Call User Handle Unit}
    (requests : FollowsClock requestBus)
    (bar : Fin 8)
    (addr : BitVec 64)
    (attr : BitVec 32)
    (byteCount : Nat) :
    FollowsClock
      (doTargetMemoryReadSplit callbacks requestBus bar addr attr
        byteCount) := by
  refine .bind (drive_followsClock _) fun _ => ?_
  refine .bind pciNextPosedge_followsClock fun _ => ?_
  refine .bind (drive_followsClock _) fun _ => ?_
  refine .bind pciNextPosedge_followsClock fun _ => ?_
  refine .bind (drive_followsClock _) fun _ => ?_
  refine .bind pciNextPosedge_followsClock fun _ => ?_
  refine .bind (drive_followsClock _) fun _ => ?_
  refine .bind (setTargetState_followsClock .idle) fun _ => ?_
  refine .bind (pciNextPosedges_followsClock 10) fun _ => ?_
  refine .bind requests fun _ => ?_
  refine .bind (drive_followsClock _) fun _ => ?_
  refine .bind (drive_followsClock _) fun _ => ?_
  refine .bind (drive_followsClock _) fun _ => ?_
  refine .bind pciNextPosedge_followsClock fun _ => .getState fun _ => ?_
  refine .bind (drive_followsClock _) fun _ => ?_
  refine .bind (drive_followsClock _) fun _ => ?_
  refine .bind pciNextPosedge_followsClock fun _ => ?_
  refine .bind (drive_followsClock _) fun _ => ?_
  refine .bind (.whileDo pciNextPosedge_followsClock) fun _ => ?_
  refine .bind (splitCompletionWords_followsClock callbacks _ _ _) fun _ => ?_
  refine .bind (pciNextPosedges_followsClock _) fun _ => ?_
  refine .bind (drive_followsClock _) fun _ => ?_
  refine .bind pciNextPosedge_followsClock fun _ => ?_
  refine .bind (drive_followsClock _) fun _ => ?_
  exact .bind (setTargetState_followsClock .idle) fun _ =>
    pciNextPosedge_followsClock

theorem needBurstWords_followsClock
    (bar : Fin 8)
    (wordSize : Nat)
    (burst : ReadBurst) :
    FollowsClock (needBurstWords callbacks bar wordSize burst) := by
  refine .getState fun _ => ?_
  refine .bind (callNeed32OrElse_followsClock callbacks _ _ _ _) fun _ => ?_
  refine .ite (.getState fun _ => ?_) (.pure _)
  exact .bind (callNeed32OrFail_followsClock callbacks _ _ _) fun _ => .pure _

theorem readBurstWord_followsClock
    (bar : Fin 8)
    (wordSize wordCount : Nat)
    (burst : ReadBurst) :
    FollowsClock (readBurstWord callbacks bar wordSize wordCount burst) := by
  refine .bind (needBurstWords_followsClock callbacks _ _ _) fun _ => ?_
  refine .bind (drive_followsClock _) fun _ => ?_
  refine .bind (drive_followsClock _) fun _ => ?_
  refine .bind pciNextPosedgeUntilIrdy_followsClock fun _ => ?_
  exact .getState fun _ => .ite (.pure _) (.ite (.pure _) (.pure _))

theorem readData_followsClock
    (bar : Fin 8)
    (addr : BitVec 64)
    (wordSize wordCount : Nat) :
    FollowsClock (readData callbacks bar addr wordSize wordCount) := by
  refine .bind (drive_followsClock _) fun _ => ?_
  refine .bind pcixNextPosedge_followsClock fun _ => ?_
  refine .bind (drive_followsClock _) fun _ => ?_
  refine .bind pciNextPosedge_followsClock fun _ => ?_
  refine .bind (.loop (readBurstWord_followsClock callbacks _ _ _) _)
    fun _ => ?_
  refine .bind (drive_followsClock _) fun _ => ?_
  refine .bind pciNextPosedge_followsClock fun _ => ?_
  exact .bind (drive_followsClock _) fun _ => setTargetState_followsClock .idle

theorem doTargetMemoryRead_followsClock
    {requestBus : Call User Handle Unit}
    (requests : FollowsClock requestBus)
    (bar : Fin 8) :
    FollowsClock (doTargetMemoryRead callbacks requestBus bar) := by
  refine .getState fun _ => ?_
  refine .bind (chooseToRetry_followsClock _ _) fun _ => ?_
  refine .ite doTargetMemoryRwRetry_followsClock (.getState fun _ => ?_)
  refine .ite ?_ (readData_followsClock callbacks bar _ _ _)
  refine .bind pciNextPosedge_followsClock fun _ => .getState fun _ => ?_
  exact .ite
    (doTargetMemoryReadSplit_followsClock callbacks requests bar _ _ _)
    (readData_followsClock callbacks bar _ _ _)

theorem writeBurstReceive_followsClock
    (bar : Fin 8)
    (burst : WriteBurst)
    (addr : BitVec 64)
    (burstLen : Nat) :
    FollowsClock (writeBurstReceive callbacks bar burst addr burstLen) := by
  refine .getState fun _ => ?_
  split
  · exact .pure _
  · refine .ite (.unseen fun _ => rfl) ?_
    refine .bind (.unseen fun _ => rfl) fun _ => .getState fun _ => ?_
    split
    · exact .abort
    · exact .unseen fun _ => rfl

theorem writeData_followsClock
    (bar : Fin 8)
    (addr : BitVec 64)
    (burst : WriteBurst) :
    FollowsClock (writeData callbacks bar addr burst) := by
  refine .bind (drive_followsClock _) fun _ => ?_
  refine .bind pcixNextPosedge_followsClock fun _ => ?_
  refine .bind (drive_followsClock _) fun _ => ?_
  refine .bind (.loop (fun current => ?_) _) fun _ => ?_
  · refine .bind pciNextPosedgeUntilIrdy_followsClock fun _ => ?_
    refine .bind (writeBurstReceive_followsClock callbacks bar burst _ _)
      fun _ => ?_
    exact .getState fun _ => .ite (.pure _) (.ite (.pure _) (.pure _))
  refine .bind (drive_followsClock _) fun _ => ?_
  exact .bind pciNextPosedge_followsClock fun _ =>
    setTargetState_followsClock .idle

theorem doTargetMemoryWrite_followsClock (bar : Fin 8) :
    FollowsClock (doTargetMemoryWrite callbacks bar) := by
  refine .getState fun _ => ?_
  refine .bind (chooseToRetry_followsClock _ _) fun _ => ?_
  refine .ite doTargetMemoryRwRetry_followsClock (.getState fun _ => ?_)
  refine .ite ?_ (writeData_followsClock callbacks bar _ _)
  refine .bind pciNextPosedge_followsClock fun _ => .getState fun _ => ?_
  refine .bind (.getState fun _ => ?_) fun _ => ?_
  · exact .bind (.unseen fun _ => rfl) fun _ => .pure _
  · exact .bind (pciNextPosedges_followsClock _) fun _ =>
      writeData_followsClock callbacks bar _ _

theorem pciTargetStateMachine_followsClock
    {requestBus : Call User Handle Unit}
    (requests : FollowsClock requestBus) :
    FollowsClock (pciTargetStateMachine callbacks requestBus) := by
  refine .bind (.assert _) fun _ => .getState fun pci => ?_
  cases targetAction pci with
  | stay =>
      exact .pure _
  | memoryRead bar =>
      exact doTargetMemoryRead_followsClock callbacks requests bar
  | memoryWrite bar =>
      exact doTargetMemoryWrite_followsClock callbacks bar
  | configRead =>
      exact doTargetConfigRead_followsClock callbacks
  | configWrite =>
      exact doTargetConfigWrite_followsClock callbacks
  | dualAddress =>
      exact .unseen fun _ => rfl
  | skip =>
      exact setTargetState_followsClock .busBusy
  | release =>
      exact setTargetState_followsClock .idle

/-! ## Requesting the bus -/

section Requests

variable {stateMachine : Call User Handle Unit}
variable (machineFollows : FollowsClock stateMachine)

include machineFollows

theorem waitLoop_followsClock
    (useIrq : BitVec 64)
    (clks : Nat)
    (mask : BitVec 64) :
    FollowsClock (waitLoop stateMachine useIrq clks mask) := by
  induction clks generalizing mask with
  | zero =>
      exact .pure _
  | succ clks inductionHypothesis =>
      refine .ite (.pure _) ?_
      refine .bind (exchangeWhileClk_followsClock _ _) fun _ => ?_
      refine .bind (exchangeWhileClk_followsClock _ _) fun _ => ?_
      refine .ite (.pure _) (.bind machineFollows fun _ => ?_)
      exact .getState fun _ => .ite (.pure _) (inductionHypothesis _)

theorem simbusPciWaitWith_followsClock
    (clks : Nat)
    (irq : Option (BitVec 64)) :
    FollowsClock (simbusPciWaitWith stateMachine clks irq) := by
  refine .ite (.getState fun _ => .pure _) ?_
  refine .bind (.unseen fun _ => rfl) fun _ => ?_
  refine .bind (waitLoop_followsClock machineFollows _ clks 0) fun result => ?_
  cases result <;> exact .pure _

theorem requestBusWith_followsClock :
    FollowsClock (requestBusWith stateMachine) := by
  have waits (count : Nat) : FollowsClock (requestLoop stateMachine count) := by
    induction count with
    | zero =>
        exact .abort
    | succ count inductionHypothesis =>
        refine .getState fun _ => .ite ?_ (.pure _)
        exact .bind (simbusPciWaitWith_followsClock machineFollows 1 none)
          fun _ => inductionHypothesis
  refine .bind (.unseen fun _ => rfl) fun _ => ?_
  exact .bind (waits requestCount) fun _ => .unseen fun _ => rfl

end Requests

/-- Nested requests are an induction on the depth. -/
theorem pciRequestBus_followsClock (stack : Nat) :
    FollowsClock (pciRequestBus callbacks stack) := by
  induction stack with
  | zero =>
      exact .abort
  | succ stack inductionHypothesis =>
      exact requestBusWith_followsClock
        (pciTargetStateMachine_followsClock callbacks inductionHypothesis)

theorem requestLoop_granted
    {pci : SimbusPci User Handle}
    (ready : ¬ busNotReady pci)
    (machine : Call User Handle Unit)
    (count : Nat) :
    (requestLoop machine (count + 1)).start pci = .finish () pci := by
  simp only [requestLoop, Program.start_bind, Program.start_getState,
    Behavior.finish_bind, ready, if_false, Program.start_pure]

/-- A client that finds the bus granted and idle goes on at once. -/
theorem requestBusWith_granted
    {pci : SimbusPci User Handle}
    (ready : ¬ busNotReady pci)
    (machine : Call User Handle Unit) :
    (requestBusWith machine).start pci =
      .finish () { pci with outReqN := .one } := by
  have stillReady : ¬ busNotReady { pci with outReqN := .zero } := ready
  obtain ⟨count, isSucc⟩ : ∃ count, requestCount = count + 1 :=
    Nat.exists_eq_succ_of_ne_zero (by decide)
  rw [requestBusWith, isSucc]
  simp only [driveReqN, Program.start_bind, Program.start_modifyState,
    Behavior.finish_bind]
  rw [requestLoop_granted stillReady]
  rfl

/-! ## Runs over whole cycles -/

/-- The clock after some UNTIL messages. -/
def lastClk (clk : Logic4) (signals : List SendSignals) : Logic4 :=
  signals.foldl (fun _ sent => sent.pciClk) clk

theorem lastClk_cycle (clk : Logic4) (cycle : ClockCycle) :
    lastClk clk cycle.signals = .one := by
  rw [lastClk, ClockCycle.signals, List.foldl_append, List.foldl_append]
  exact cycle.rises

variable {behavior after : Behavior (SimbusPci User Handle) Reply Value}
variable {post : Post (clockSeen User Handle) Value}

theorem Holds.meets
    {out : BiSignals}
    {signals : List SendSignals}
    {clk : Logic4}
    (holds : Holds out behavior (untilReplies signals) after)
    (meets : Meets (clockSeen User Handle) post clk behavior) :
    Meets (clockSeen User Handle) post (lastClk clk signals) after := by
  induction signals generalizing clk behavior with
  | nil =>
      cases holds
      exact meets
  | cons sent signals inductionHypothesis =>
      cases holds with
      | exchange waits _ later =>
          exact inductionHypothesis later
            (((meets_of_waits waits).mp meets).2 _ _ rfl)

theorem ClockRun.establishes
    {cycles : List ClockCycle}
    {outs : List BiSignals}
    {value : Value}
    {final : SimbusPci User Handle}
    (run : ClockRun behavior cycles outs value final)
    (meets : Meets (clockSeen User Handle) post .one behavior) :
    post value .one final := by
  induction run with
  | done finished =>
      rw [finished] at meets
      exact meets_finish.mp meets
  | @clock _ _ cycle _ _ _ _ _ holds _ inductionHypothesis =>
      have after := holds.meets meets
      rw [lastClk_cycle] at after
      exact inductionHypothesis after

/-- After a run over whole cycles a client is at a rising edge. -/
theorem ClockRun.atEdge
    {call : Call User Handle Value}
    {cycles : List ClockCycle}
    {outs : List BiSignals}
    {value : Value}
    {pci final : SimbusPci User Handle}
    (follows : FollowsClock call)
    (atEdge : pci.pciClk = .one)
    (run : ClockRun (call.start pci) cycles outs value final) :
    final.pciClk = .one :=
  run.establishes (follows .one pci atEdge)

end

end Simbus.Pci
