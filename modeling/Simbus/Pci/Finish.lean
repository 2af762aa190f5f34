import Simbus.Clocked.Abandoned
import Simbus.Pci.InterruptWait

/-!
# FINISH on the PCI bus

`__pci_next_posedge` throws the results of its exchanges away.  After a FINISH it
waits for an edge of a clock that does not change any more, and with it everything
that waits for an edge.  Only the loops of `simbus_pci_wait` itself look at the
result.
-/

namespace Simbus.Pci

open FourValued Clocked

section

variable {User Handle Value Result : Type}

/-! ## The clock that is left -/

/-- The clock is high or low. -/
def SimbusPci.AtLevel (pci : SimbusPci User Handle) : Prop :=
  pci.pciClk = .zero ∨ pci.pciClk = .one

/-- Whoever is granted the bus has seen the clock. -/
def SimbusPci.Synced (pci : SimbusPci User Handle) : Prop :=
  pci.pciGntN = .zero → pci.AtLevel

/-- An UNTIL with a clock that is high or low. -/
def Reply.OnLevel : Reply → Prop
  | .until signals => signals.pciClk = .zero ∨ signals.pciClk = .one
  | .finish => False

/-- Wherever the call waits it never returns after a FINISH. -/
abbrev Unheeding (call : Call User Handle Value) : Prop :=
  Deaf Reply.OnLevel .finish SimbusPci.Synced call

/-- The call never returns after a FINISH that comes before it. -/
def LostFrom (call : Call User Handle Value) : Prop :=
  ∀ pci, pci.AtLevel → Lost .finish (call.start pci)

/-- After a FINISH the call returns only with the bus, if at all. -/
def Opens (call : Call User Handle Unit) : Prop :=
  ∀ pci, pci.Synced →
    AtPoints Reply.OnLevel (Deserted .finish fun _ => SimbusPci.AtLevel)
      (fun _ => SimbusPci.Synced) (call.start pci)

/-! ## Rules -/

theorem Unheeding.pure (value : Value) :
    Unheeding (Pure.pure value : Call User Handle Value) :=
  Deaf.pure value

theorem Unheeding.bind
    {call : Call User Handle Value}
    {next : Value → Call User Handle Result}
    (first : Unheeding call)
    (later : ∀ value, Unheeding (next value)) :
    Unheeding (call >>= next) :=
  Deaf.bind first later

theorem Unheeding.getState
    {next : SimbusPci User Handle → Call User Handle Value}
    (reads : ∀ pci, Unheeding (next pci)) :
    Unheeding (Program.getState >>= next) :=
  Deaf.getState reads

theorem Unheeding.ite
    {condition : Prop}
    [Decidable condition]
    {yes no : Call User Handle Value}
    (first : Unheeding yes)
    (second : Unheeding no) :
    Unheeding (if condition then yes else no) :=
  Deaf.ite first second

/-- A change that leaves the clock and the grant alone. -/
theorem Unheeding.unseen
    {change : SimbusPci User Handle → SimbusPci User Handle}
    (sameClk : ∀ pci, (change pci).pciClk = pci.pciClk)
    (sameGnt : ∀ pci, (change pci).pciGntN = pci.pciGntN) :
    Unheeding (Program.modifyState change) := by
  refine Deaf.modifyState fun pci synced granted => ?_
  rw [sameGnt] at granted
  rw [SimbusPci.AtLevel, sameClk]
  exact synced granted

theorem Unheeding.drive (change : BiSignals → BiSignals) :
    Unheeding (drive change : Call User Handle Unit) :=
  .unseen (fun _ => rfl) fun _ => rfl

theorem LostFrom.bind
    {call : Call User Handle Value}
    (lost : LostFrom call)
    (next : Value → Call User Handle Result) :
    LostFrom (call >>= next) :=
  fun pci level => (lost pci level).bind _

/-- What leaves the clock alone does not help. -/
theorem LostFrom.after
    {change : SimbusPci User Handle → SimbusPci User Handle}
    {next : Unit → Call User Handle Value}
    (lost : LostFrom (next ()))
    (sameClk : ∀ pci, (change pci).pciClk = pci.pciClk) :
    LostFrom (Program.modifyState change >>= next) := by
  intro pci level
  refine lost (change pci) ?_
  rw [SimbusPci.AtLevel, sameClk]
  exact level

theorem LostFrom.afterDrive
    {change : BiSignals → BiSignals}
    {next : Unit → Call User Handle Value}
    (lost : LostFrom (next ())) :
    LostFrom (drive change >>= next) :=
  lost.after fun _ => rfl

/-- Whoever gets the bus then waits for an edge. -/
theorem Opens.bind
    {call : Call User Handle Unit}
    {next : Unit → Call User Handle Value}
    (opens : Opens call)
    (lost : LostFrom (next ()))
    (later : Unheeding (next ())) :
    Unheeding (call >>= next) := by
  intro step pci synced
  have goesOn (value : Unit) (state : SimbusPci User Handle)
      (after : state.Synced) :
      AtPoints Reply.OnLevel (Lost .finish)
        (fun _ state => ∃ _ : Nat, SimbusPci.Synced state)
        ((next value).start state) := later step state after
  exact (opens pci synced).bind
    (fun _ deserted => Deserted.bind deserted fun _ => lost) goesOn

/-! ## Edges -/

theorem sendReadyCommand_takes :
    TakesReply Reply.OnLevel .finish SimbusPci.Synced simbusPciFinished
      (sendReadyCommand : Call User Handle Int) where
  sends := fun _ => rfl
  ended := fun _ => rfl
  taken := by
    intro pci _ reply onLevel
    cases reply with
    | «until» signals =>
        exact .inl ⟨pci.sample signals, rfl, fun _ => onLevel⟩
    | finish =>
        exact onLevel.elim

theorem pciNextPosedge_unheeding :
    Unheeding (pciNextPosedge : Call User Handle Unit) := by
  refine .bind (poll_keeps sendReadyCommand_takes) fun _ => ?_
  refine .bind (poll_keeps sendReadyCommand_takes) fun _ => ?_
  exact .unseen (fun _ => rfl) fun _ => rfl

theorem pciNextPosedge_lost :
    LostFrom (pciNextPosedge : Call User Handle Unit) := by
  rintro pci (low | high)
  · have skipped : (poll (fun pci => decide (pci.pciClk = .one))
        (sendReadyCommand : Call User Handle Int)).start pci =
          .finish () pci := Program.start_whileDo_false (by simp [low])
    rw [pciNextPosedge, Program.start_bind, skipped, Behavior.finish_bind]
    exact (poll_lost sendReadyCommand_takes (decide_eq_true low)).bind _
  · exact (poll_lost sendReadyCommand_takes (decide_eq_true high)).bind _

theorem pciNextPosedgeUntilIrdy_unheeding :
    Unheeding (pciNextPosedgeUntilIrdy : Call User Handle Unit) :=
  .bind pciNextPosedge_unheeding fun _ =>
    Deaf.whileDo pciNextPosedge_unheeding

theorem pciNextPosedgeUntilTrdy_unheeding :
    Unheeding (pciNextPosedgeUntilTrdy : Call User Handle Unit) :=
  Deaf.whileDo pciNextPosedge_unheeding

theorem pcixNextPosedge_unheeding :
    Unheeding (pcixNextPosedge : Call User Handle Unit) :=
  .getState fun _ => .ite pciNextPosedge_unheeding (.pure _)

theorem pciNextPosedges_unheeding (count : Nat) :
    Unheeding (pciNextPosedges count : Call User Handle Unit) := by
  induction count with
  | zero =>
      exact .pure _
  | succ count inductionHypothesis =>
      exact .bind pciNextPosedge_unheeding fun _ => inductionHypothesis

theorem setTargetState_unheeding (state : TargetState) :
    Unheeding (setTargetState state : Call User Handle Unit) :=
  .unseen (fun _ => rfl) fun _ => rfl

theorem genrand_unheeding : Unheeding (genrand : Call User Handle Int) :=
  .getState fun _ =>
    .bind (.unseen (fun _ => rfl) fun _ => rfl) fun _ => .pure _

theorem chooseToRetry_unheeding (flag : BitVec 32) (bar : Fin 8) :
    Unheeding (chooseToRetry flag bar : Call User Handle Bool) := by
  refine .getState fun pci => .ite (.pure _) (.ite (.pure _) ?_)
  exact .bind genrand_unheeding fun _ => .pure _

/-! ## The target machine -/

section Target

variable (callbacks : Callbacks User Handle)

theorem callNeed32_unheeding
    (handle : Handle)
    (addr : BitVec 64)
    (ben : BitVec 32) :
    Unheeding (callNeed32 callbacks handle addr ben) :=
  .getState fun _ =>
    .bind (.unseen (fun _ => rfl) fun _ => rfl) fun _ => .pure _

theorem callNeed32OrElse_unheeding
    (need32 : Option Handle)
    (addr : BitVec 64)
    (ben otherwise : BitVec 32) :
    Unheeding (callNeed32OrElse callbacks need32 addr ben otherwise) := by
  cases need32 with
  | none =>
      exact .pure _
  | some handle =>
      exact callNeed32_unheeding callbacks handle addr ben

theorem callNeed32OrFail_unheeding
    (need32 : Option Handle)
    (addr : BitVec 64)
    (ben : BitVec 32) :
    Unheeding (callNeed32OrFail callbacks need32 addr ben) := by
  cases need32 with
  | none =>
      exact Deaf.abort
  | some handle =>
      exact callNeed32_unheeding callbacks handle addr ben

theorem callRecv32_unheeding
    (handle : Handle)
    (addr : BitVec 64)
    (val ben : BitVec 32) :
    Unheeding (callRecv32 callbacks handle addr val ben) :=
  .unseen (fun _ => rfl) fun _ => rfl

theorem callRecv32IfAny_unheeding
    (recv32 : Option Handle)
    (addr : BitVec 64)
    (val ben : BitVec 32) :
    Unheeding (callRecv32IfAny callbacks recv32 addr val ben) := by
  cases recv32 with
  | none =>
      exact .pure _
  | some handle =>
      exact callRecv32_unheeding callbacks handle addr val ben

theorem doTargetConfigRead_unheeding :
    Unheeding (doTargetConfigRead callbacks) := by
  refine .getState fun pci => ?_
  refine .bind (callNeed32OrElse_unheeding _ _ _ _ _) fun val => ?_
  refine .bind (.drive _) fun _ => .bind pciNextPosedge_unheeding fun _ => ?_
  refine .bind (.drive _) fun _ => ?_
  refine .bind pciNextPosedgeUntilIrdy_unheeding fun _ => ?_
  refine .bind (.drive _) fun _ => .bind pciNextPosedge_unheeding fun _ => ?_
  exact .bind (.drive _) fun _ => setTargetState_unheeding .idle

theorem doTargetConfigWrite_unheeding :
    Unheeding (doTargetConfigWrite callbacks) := by
  refine .bind (Deaf.assert _) fun _ => .getState fun pci => ?_
  refine .bind (.drive _) fun _ => ?_
  refine .bind pciNextPosedgeUntilIrdy_unheeding fun _ => ?_
  refine .getState fun sampled => ?_
  refine .bind (callRecv32IfAny_unheeding _ _ _ _ _) fun _ => ?_
  refine .bind (.drive _) fun _ => .bind pciNextPosedge_unheeding fun _ => ?_
  exact .bind (.drive _) fun _ => setTargetState_unheeding .idle

theorem doTargetMemoryRwRetry_unheeding :
    Unheeding (doTargetMemoryRwRetry : Call User Handle Unit) := by
  refine .bind pcixNextPosedge_unheeding fun _ => ?_
  refine .bind (.drive _) fun _ => .bind pcixNextPosedge_unheeding fun _ => ?_
  refine .bind (.drive _) fun _ => .bind pciNextPosedge_unheeding fun _ => ?_
  refine .bind (.drive _) fun _ => .bind pciNextPosedge_unheeding fun _ => ?_
  refine .bind (.drive _) fun _ => .bind pciNextPosedge_unheeding fun _ => ?_
  exact setTargetState_unheeding .idle

theorem splitCompletionWords_unheeding
    (bar : Fin 8)
    (wordCount : Nat)
    (useAddr : BitVec 64) :
    Unheeding (splitCompletionWords callbacks bar wordCount useAddr) := by
  induction wordCount generalizing useAddr with
  | zero =>
      exact .pure _
  | succ wordCount inductionHypothesis =>
      refine .bind (.drive _) fun _ => .getState fun pci => ?_
      refine .bind (callNeed32OrFail_unheeding _ _ _ _) fun val => ?_
      refine .bind (.drive _) fun _ => ?_
      exact .bind pciNextPosedge_unheeding fun _ =>
        inductionHypothesis (useAddr + 4)

/-- The split completion has the bus when it waits for its first edge. -/
theorem doTargetMemoryReadSplit_unheeding
    {requestBus : Call User Handle Unit}
    (opens : Opens requestBus)
    (bar : Fin 8)
    (addr : BitVec 64)
    (attr : BitVec 32)
    (byteCount : Nat) :
    Unheeding
      (doTargetMemoryReadSplit callbacks requestBus bar addr attr
        byteCount) := by
  refine .bind (.drive _) fun _ => .bind pciNextPosedge_unheeding fun _ => ?_
  refine .bind (.drive _) fun _ => .bind pciNextPosedge_unheeding fun _ => ?_
  refine .bind (.drive _) fun _ => .bind pciNextPosedge_unheeding fun _ => ?_
  refine .bind (.drive _) fun _ => ?_
  refine .bind (setTargetState_unheeding .idle) fun _ => ?_
  refine .bind (pciNextPosedges_unheeding 10) fun _ => ?_
  refine opens.bind ?_ ?_
  · exact .afterDrive (.afterDrive (.afterDrive (pciNextPosedge_lost.bind _)))
  refine .bind (.drive _) fun _ => .bind (.drive _) fun _ => ?_
  refine .bind (.drive _) fun _ => .bind pciNextPosedge_unheeding fun _ => ?_
  refine .getState fun pci => .bind (.drive _) fun _ => ?_
  refine .bind (.drive _) fun _ => .bind pciNextPosedge_unheeding fun _ => ?_
  refine .bind (.drive _) fun _ => ?_
  refine .bind (Deaf.whileDo pciNextPosedge_unheeding) fun _ => ?_
  refine .bind (splitCompletionWords_unheeding _ _ _ _) fun _ => ?_
  refine .bind (pciNextPosedges_unheeding _) fun _ => ?_
  refine .bind (.drive _) fun _ => .bind pciNextPosedge_unheeding fun _ => ?_
  refine .bind (.drive _) fun _ => ?_
  exact .bind (setTargetState_unheeding .idle) fun _ =>
    pciNextPosedge_unheeding

theorem needBurstWords_unheeding
    (bar : Fin 8)
    (wordSize : Nat)
    (burst : ReadBurst) :
    Unheeding (needBurstWords callbacks bar wordSize burst) := by
  refine .getState fun pci => ?_
  refine .bind (callNeed32OrElse_unheeding _ _ _ _ _) fun valL => ?_
  refine .ite (.getState fun next => ?_) (.pure _)
  exact .bind (callNeed32OrFail_unheeding _ _ _ _) fun valH => .pure _

theorem readBurstWord_unheeding
    (bar : Fin 8)
    (wordSize wordCount : Nat)
    (burst : ReadBurst) :
    Unheeding (readBurstWord callbacks bar wordSize wordCount burst) := by
  refine .bind (needBurstWords_unheeding _ _ _ _) fun words => ?_
  refine .bind (.drive _) fun _ => .bind (.drive _) fun _ => ?_
  refine .bind pciNextPosedgeUntilIrdy_unheeding fun _ => ?_
  exact .getState fun pci => .ite (.pure _) (.ite (.pure _) (.pure _))

theorem readData_unheeding
    (bar : Fin 8)
    (addr : BitVec 64)
    (wordSize wordCount : Nat) :
    Unheeding (readData callbacks bar addr wordSize wordCount) := by
  refine .bind (.drive _) fun _ => .bind pcixNextPosedge_unheeding fun _ => ?_
  refine .bind (.drive _) fun _ => .bind pciNextPosedge_unheeding fun _ => ?_
  refine .bind (Deaf.loop (readBurstWord_unheeding _ _ _ _) _) fun _ => ?_
  refine .bind (.drive _) fun _ => .bind pciNextPosedge_unheeding fun _ => ?_
  exact .bind (.drive _) fun _ => setTargetState_unheeding .idle

theorem doTargetMemoryRead_unheeding
    {requestBus : Call User Handle Unit}
    (opens : Opens requestBus)
    (bar : Fin 8) :
    Unheeding (doTargetMemoryRead callbacks requestBus bar) := by
  refine .getState fun pci => ?_
  refine .bind (chooseToRetry_unheeding _ _) fun retry => ?_
  refine .ite doTargetMemoryRwRetry_unheeding (.getState fun pci => ?_)
  refine .ite (.bind pciNextPosedge_unheeding fun _ => ?_) ?_
  · refine .getState fun sampled => .ite ?_ ?_
    · exact doTargetMemoryReadSplit_unheeding callbacks opens _ _ _ _
    · exact readData_unheeding callbacks _ _ _ _
  · exact readData_unheeding callbacks _ _ _ _

theorem writeBurstReceive_unheeding
    (bar : Fin 8)
    (burst : WriteBurst)
    (addr : BitVec 64)
    (burstLen : Nat) :
    Unheeding (writeBurstReceive callbacks bar burst addr burstLen) := by
  refine .getState fun pci => ?_
  split
  · exact .pure _
  · refine .ite (callRecv32_unheeding _ _ _ _ _) ?_
    refine .bind (callRecv32_unheeding _ _ _ _ _) fun _ => ?_
    refine .getState fun next => ?_
    split
    · exact Deaf.abort
    · exact callRecv32_unheeding _ _ _ _ _

theorem writeBurstWord_unheeding
    (bar : Fin 8)
    (burst : WriteBurst)
    (current : BitVec 64 × Nat) :
    Unheeding (writeBurstWord callbacks bar burst current) := by
  refine .bind pciNextPosedgeUntilIrdy_unheeding fun _ => ?_
  refine .bind (writeBurstReceive_unheeding _ _ _ _ _) fun _ => ?_
  exact .getState fun pci => .ite (.pure _) (.ite (.pure _) (.pure _))

theorem writeData_unheeding
    (bar : Fin 8)
    (addr : BitVec 64)
    (burst : WriteBurst) :
    Unheeding (writeData callbacks bar addr burst) := by
  refine .bind (.drive _) fun _ => .bind pcixNextPosedge_unheeding fun _ => ?_
  refine .bind (.drive _) fun _ => ?_
  refine .bind (Deaf.loop (writeBurstWord_unheeding _ _ _) _) fun _ => ?_
  refine .bind (.drive _) fun _ => .bind pciNextPosedge_unheeding fun _ => ?_
  exact setTargetState_unheeding .idle

theorem doTargetMemoryWrite_unheeding (bar : Fin 8) :
    Unheeding (doTargetMemoryWrite callbacks bar) := by
  refine .getState fun pci => ?_
  refine .bind (chooseToRetry_unheeding _ _) fun retry => ?_
  refine .ite doTargetMemoryRwRetry_unheeding (.getState fun pci => ?_)
  refine .ite (.bind pciNextPosedge_unheeding fun _ => ?_) ?_
  · refine .getState fun sampled => .bind genrand_unheeding fun _ => ?_
    refine .bind (pciNextPosedges_unheeding _) fun _ => ?_
    exact writeData_unheeding callbacks _ _ _
  · exact writeData_unheeding callbacks _ _ _

theorem pciTargetStateMachine_unheeding
    {requestBus : Call User Handle Unit}
    (opens : Opens requestBus) :
    Unheeding (pciTargetStateMachine callbacks requestBus) := by
  refine .bind (Deaf.assert _) fun _ => .getState fun pci => ?_
  cases targetAction pci with
  | stay =>
      exact .pure _
  | memoryRead bar =>
      exact doTargetMemoryRead_unheeding callbacks opens bar
  | memoryWrite bar =>
      exact doTargetMemoryWrite_unheeding callbacks bar
  | configRead =>
      exact doTargetConfigRead_unheeding callbacks
  | configWrite =>
      exact doTargetConfigWrite_unheeding callbacks
  | dualAddress =>
      exact .unseen (fun _ => rfl) fun _ => rfl
  | skip =>
      exact setTargetState_unheeding .busBusy
  | release =>
      exact setTargetState_unheeding .idle

end Target

end

end Simbus.Pci
