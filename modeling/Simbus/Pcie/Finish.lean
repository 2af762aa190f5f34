import Simbus.Clocked.Abandoned
import Simbus.Pcie.Access
import Simbus.Pcie.InterruptWait

/-!
# FINISH on PCIe

`__pcie_tlp_next_posedge` throws the results of its exchanges away.  Nothing of
the library that waits for the clock returns after a FINISH.
-/

namespace Simbus.Pcie

open FourValued Clocked

section

variable {User Value : Type}

/-- An UNTIL. -/
def Reply.IsUntil : Reply → Prop
  | .until _ => True
  | .finish => False

/-- Wherever the call waits it never returns after a FINISH. -/
abbrev Unheeding (call : Call User Value) : Prop :=
  Deaf Reply.IsUntil .finish (fun _ => True) call

theorem modifyState_unheeding
    (change : SimbusPcieTlp User → SimbusPcieTlp User) :
    Unheeding (Program.modifyState change) :=
  .modifyState fun _ => id

theorem failAt_unheeding (fault : Fault) :
    Unheeding (failAt fault : Call User Value) :=
  fun _ _ _ => (deaf _ _).fail trivial

theorem check_unheeding
    (fault : Fault)
    (condition : SimbusPcieTlp User → Bool) :
    Unheeding (check fault condition) := by
  intro step bus before
  by_cases holds : condition bus = true
  · have ends : (check fault condition).start bus = .finish () bus := by
      simp only [check, holds, ↓reduceIte]
    rw [ends]
    exact atPoints_finish ⟨step, before⟩
  · have fails : (check fault condition).start bus =
        (failAt fault).start bus := by
      simp only [check, holds, Bool.false_eq_true, ↓reduceIte]
    rw [fails]
    exact failAt_unheeding fault step bus before

theorem sendReadyCommand_takes :
    TakesReply Reply.IsUntil .finish (fun _ => True) simbusPcieTlpFinished
      (sendReadyCommand : Call User Int) where
  sends := fun _ => rfl
  ended := fun _ => rfl
  taken := by
    intro bus _ reply isUntil
    cases reply with
    | «until» signals =>
        exact .inl ⟨bus.sample signals, rfl, trivial⟩
    | finish =>
        exact isUntil.elim

theorem waitPosedge_unheeding :
    Unheeding (waitPosedge : Call User Unit) := by
  refine .bind (poll_keeps sendReadyCommand_takes) fun _ => ?_
  refine .bind (poll_keeps sendReadyCommand_takes) fun _ => ?_
  exact modifyState_unheeding _

/-! ## Receiving -/

section Receiving

variable {send : Tlp → Call User Unit}
variable (sends : ∀ tlp, Unheeding (send tlp))

theorem crankAll_unheeding (words : List (BitVec 32)) :
    Unheeding (crankAll words : Call User Unit) := by
  induction words with
  | nil =>
      exact .pure _
  | cons val rest inductionHypothesis =>
      refine .bind (.bind (check_unheeding _ _) fun _ => ?_)
        fun _ => inductionHypothesis
      exact modifyState_unheeding _

theorem copyTlpToCompletion_unheeding (tag : BitVec 8) (words : Nat) :
    Unheeding (copyTlpToCompletion tag words : Call User Unit) :=
  .bind (check_unheeding _ _) fun _ => .bind (check_unheeding _ _) fun _ =>
    modifyState_unheeding _

include sends

theorem callSendTlp_unheeding (tlp : Tlp) :
    Unheeding (callSendTlp send tlp) :=
  .bind (modifyState_unheeding _) fun _ => sends tlp

/-- A callback waits only where it sends. -/
theorem runScript_unheeding (script : Script User Value) :
    Unheeding (runScript send script) := by
  induction script with
  | done value =>
      exact .pure _
  | look next inductionHypothesis =>
      exact .getState fun bus => inductionHypothesis _
  | change user next inductionHypothesis =>
      exact .bind (modifyState_unheeding _) fun _ => inductionHypothesis
  | send tlp next inductionHypothesis =>
      exact .bind (callSendTlp_unheeding sends tlp) fun _ =>
        inductionHypothesis

theorem recvWrite_unheeding (first : Nat) (addr : BitVec 64) :
    Unheeding (recvWrite send first addr) := by
  refine .getState fun bus => ?_
  cases bus.writeFun with
  | none =>
      exact .pure _
  | some writeFun =>
      refine .bind (modifyState_unheeding _) fun _ => .getState fun bus => ?_
      exact runScript_unheeding sends _

theorem recvRead_unheeding (addr : BitVec 64) :
    Unheeding (recvRead send addr) := by
  refine .getState fun bus => ?_
  cases bus.readFun with
  | none =>
      exact .pure _
  | some readFun =>
      exact .bind (runScript_unheeding sends _) fun data => .pure _

theorem dispatchTlp_unheeding : Unheeding (dispatchTlp send) := by
  refine .getState fun bus => ?_
  refine .ite (.bind (copyTlpToCompletion_unheeding _ _) fun _ => .pure _) ?_
  refine .ite (.bind (copyTlpToCompletion_unheeding _ _) fun _ => .pure _) ?_
  refine .ite (.bind (recvWrite_unheeding sends _ _) fun _ => .pure _) ?_
  refine .ite (.bind (recvWrite_unheeding sends _ _) fun _ => .pure _) ?_
  refine .ite (.bind (recvRead_unheeding sends _) fun _ => .pure _) ?_
  refine .ite (.bind (recvRead_unheeding sends _) fun _ => .pure _) ?_
  refine .ite ?_ (.pure _)
  refine .ite (.bind (modifyState_unheeding _) fun _ => .pure _) ?_
  exact .ite (.bind (modifyState_unheeding _) fun _ => .pure _) (.pure _)

theorem pcieTlpNextPosedge_unheeding :
    Unheeding (pcieTlpNextPosedge send) := by
  refine .bind waitPosedge_unheeding fun _ => .getState fun bus => ?_
  refine .ite ?_ (.pure _)
  refine .bind (crankAll_unheeding _) fun _ => ?_
  refine .bind (check_unheeding _ _) fun _ => .ite ?_ (.pure _)
  refine .bind (check_unheeding _ _) fun _ => ?_
  refine .bind (dispatchTlp_unheeding sends) fun tlp => ?_
  refine .bind (modifyState_unheeding _) fun _ => ?_
  cases tlp with
  | none =>
      exact .pure _
  | some tlp =>
      exact callSendTlp_unheeding sends tlp

/-! ## Sending -/

theorem doSendTlpRaw_unheeding (data : List (BitVec 32)) :
    Unheeding (doSendTlpRaw send data) := by
  refine .loop (fun data => ?_) data
  cases data with
  | nil =>
      exact .pure _
  | cons first rest =>
      refine .bind (modifyState_unheeding _) fun _ => ?_
      refine .bind (pcieTlpNextPosedge_unheeding sends) fun _ => ?_
      refine .getState fun bus => .ite ?_ (.pure _)
      exact .ite (.bind (modifyState_unheeding _) fun _ => .pure _) (.pure _)

omit sends in
theorem readCell_unheeding (cell : Nat) :
    Unheeding (readCell cell : Call User (Ring.Cell Tlp)) := by
  intro step bus before
  cases content : bus.cells cell with
  | none =>
      have fails : (readCell cell).start bus =
          (failAt .danglingCell).start bus := by
        simp only [readCell, content]
      rw [fails]
      exact failAt_unheeding .danglingCell step bus before
  | some found =>
      have ends : (readCell cell).start bus = .finish found bus := by
        simp only [readCell, content]
      rw [ends]
      exact atPoints_finish ⟨step, before⟩

omit sends in
theorem setNext_unheeding (cell next : Nat) :
    Unheeding (setNext cell next : Call User Unit) :=
  .bind (readCell_unheeding _) fun _ => modifyState_unheeding _

omit sends in
theorem outList_unheeding : Unheeding (outList : Call User Nat) := by
  refine .getState fun bus => ?_
  cases bus.tlpOutList with
  | none =>
      exact failAt_unheeding _
  | some list =>
      exact .pure _

omit sends in
theorem unlink_unheeding (cur : Nat) :
    Unheeding (unlink cur : Call User Unit) := by
  refine .getState fun bus => .ite ?_ ?_
  · exact .bind (modifyState_unheeding _) fun _ => modifyState_unheeding _
  · refine .bind outList_unheeding fun list => ?_
    refine .bind (readCell_unheeding _) fun tail => ?_
    refine .bind (check_unheeding _ _) fun _ => ?_
    refine .bind (readCell_unheeding _) fun curCell => ?_
    exact .bind (setNext_unheeding _ _) fun _ => modifyState_unheeding _

theorem drain_unheeding : Unheeding (drain send) := by
  refine .whileDo (.bind outList_unheeding fun list => ?_)
  refine .bind (readCell_unheeding _) fun tail => ?_
  refine .bind (readCell_unheeding _) fun cur => ?_
  exact .bind (doSendTlpRaw_unheeding sends _) fun _ => unlink_unheeding _

theorem sendTlpBody_unheeding (tlp : Tlp) :
    Unheeding (sendTlpBody send tlp) := by
  refine .bind (.getState fun bus => .bind (modifyState_unheeding _) fun _ =>
    .pure _) fun cell => ?_
  refine .getState fun bus => ?_
  cases bus.tlpOutList with
  | none =>
      refine .bind (modifyState_unheeding _) fun _ => ?_
      exact .bind (setNext_unheeding _ _) fun _ => drain_unheeding sends
  | some list =>
      refine .bind (readCell_unheeding _) fun tail => ?_
      refine .bind (setNext_unheeding _ _) fun _ => ?_
      exact .bind (setNext_unheeding _ _) fun _ => modifyState_unheeding _

end Receiving

/-- Nested calls are an induction on the depth. -/
theorem pcieTlpSendTlp_unheeding (stack : Nat) (tlp : Tlp) :
    Unheeding (pcieTlpSendTlp stack tlp : Call User Unit) := by
  induction stack generalizing tlp with
  | zero =>
      exact failAt_unheeding _
  | succ stack inductionHypothesis =>
      exact sendTlpBody_unheeding inductionHypothesis tlp

/-! ## Calls -/

theorem simbusPcieTlpWait_unheeding
    (stack : Nat)
    (clks : BitVec 32)
    (irqMask : Option (BitVec 32)) :
    Unheeding
      (simbusPcieTlpWait stack clks irqMask :
        Call User (Int × Option (BitVec 32))) := by
  have loops (enableMask : BitVec 32) (clks : Nat) :
      Unheeding (waitLoop (pcieTlpSendTlp stack) enableMask clks :
        Call User (Nat × BitVec 32)) := by
    induction clks with
    | zero =>
        exact .pure _
    | succ clks inductionHypothesis =>
        refine .bind (pcieTlpNextPosedge_unheeding
          (pcieTlpSendTlp_unheeding stack)) fun _ => .getState fun bus => ?_
        exact .ite inductionHypothesis (.pure _)
  refine .ite (.getState fun bus => .pure _) ?_
  exact .bind (loops _ _) fun result => .pure _

theorem checkRequest_unheeding (ndata off len : Nat) :
    Unheeding (checkRequest ndata off len : Call User Unit) :=
  .bind (check_unheeding _ _) fun _ => .bind (check_unheeding _ _) fun _ =>
    check_unheeding _ _

theorem pcieTlpChooseTag_unheeding :
    Unheeding (pcieTlpChooseTag : Call User (BitVec 8)) :=
  .getState fun _ => .bind (modifyState_unheeding _) fun _ => .pure _

theorem awaitCompletion_unheeding (stack : Nat) (tag : BitVec 8) :
    Unheeding (awaitCompletion stack tag : Call User Unit) :=
  .whileDo (pcieTlpNextPosedge_unheeding (pcieTlpSendTlp_unheeding stack))

theorem takeCompletion_unheeding (tag : BitVec 8) :
    Unheeding (takeCompletion tag : Call User (List (BitVec 32))) := by
  refine .getState fun bus => ?_
  cases bus.completions tag with
  | none =>
      exact failAt_unheeding _
  | some ctlp =>
      exact .bind (modifyState_unheeding _) fun _ => .pure _

theorem cfgWrite_unheeding
    (stack : Nat)
    (busDevfn addr : BitVec 16)
    (be val : BitVec 32) :
    Unheeding (cfgWrite stack busDevfn addr be val : Call User Unit) := by
  refine .bind pcieTlpChooseTag_unheeding fun tag => .getState fun bus => ?_
  refine .bind (callSendTlp_unheeding (pcieTlpSendTlp_unheeding stack) _) fun _ => ?_
  refine .bind (awaitCompletion_unheeding _ _) fun _ => ?_
  exact .bind (takeCompletion_unheeding _) fun _ => .pure _

/-- The calls of the library that wait for the clock. -/
inductive Operation where
  | wait (clks : BitVec 32) (irqMask : Option (BitVec 32))
  | write (addr : BitVec 64) (data : List (BitVec 32)) (off len : Nat)
  | read (addr : BitVec 64) (ndata off len : Nat)
  | cfgWrite32 (busDevfn addr : BitVec 16) (val : BitVec 32)
  | cfgWrite16 (busDevfn addr : BitVec 16) (val : BitVec 16)
  | cfgWrite8 (busDevfn addr : BitVec 16) (val : BitVec 8)
  | cfgRead32 (busDevfn addr : BitVec 16)

/-- The call, without its result. -/
def Operation.perform (stack : Nat) : Operation → Call User Unit
  | .wait clks irqMask => do
      let _ ← simbusPcieTlpWait stack clks irqMask
  | .write addr data off len => simbusPcieTlpWrite stack addr data off len
  | .read addr ndata off len => do
      let _ ← simbusPcieTlpRead stack addr ndata off len
  | .cfgWrite32 busDevfn addr val =>
      simbusPcieTlpCfgWrite32 stack busDevfn addr val
  | .cfgWrite16 busDevfn addr val =>
      simbusPcieTlpCfgWrite16 stack busDevfn addr val
  | .cfgWrite8 busDevfn addr val =>
      simbusPcieTlpCfgWrite8 stack busDevfn addr val
  | .cfgRead32 busDevfn addr => do
      let _ ← simbusPcieTlpCfgRead32 stack busDevfn addr

/-- None of them heeds a FINISH. -/
theorem Operation.perform_unheeding (stack : Nat) (operation : Operation) :
    Unheeding (operation.perform stack : Call User Unit) := by
  cases operation with
  | wait clks irqMask =>
      exact .bind (simbusPcieTlpWait_unheeding _ _ _) fun _ => .pure _
  | write addr data off len =>
      refine .bind (checkRequest_unheeding _ _ _) fun _ => ?_
      exact .getState fun bus =>
        callSendTlp_unheeding (pcieTlpSendTlp_unheeding stack) _
  | read addr ndata off len =>
      refine .bind ?_ fun _ => .pure _
      refine .bind (checkRequest_unheeding _ _ _) fun _ => ?_
      refine .bind (check_unheeding _ _) fun _ => ?_
      refine .bind pcieTlpChooseTag_unheeding fun tag => ?_
      refine .getState fun bus => ?_
      refine .bind (callSendTlp_unheeding (pcieTlpSendTlp_unheeding stack) _) fun _ => ?_
      refine .bind (awaitCompletion_unheeding _ _) fun _ => ?_
      refine .bind (takeCompletion_unheeding _) fun ctlp => ?_
      exact .ite (.bind (check_unheeding _ _) fun _ => .pure _) (.pure _)
  | cfgWrite32 busDevfn addr val =>
      exact cfgWrite_unheeding _ _ _ _ _
  | cfgWrite16 busDevfn addr val =>
      exact cfgWrite_unheeding _ _ _ _ _
  | cfgWrite8 busDevfn addr val =>
      exact cfgWrite_unheeding _ _ _ _ _
  | cfgRead32 busDevfn addr =>
      refine .bind ?_ fun _ => .pure _
      refine .bind pcieTlpChooseTag_unheeding fun tag => ?_
      refine .getState fun bus => ?_
      refine .bind (callSendTlp_unheeding (pcieTlpSendTlp_unheeding stack) _) fun _ => ?_
      refine .bind (awaitCompletion_unheeding _ _) fun _ => ?_
      refine .bind (takeCompletion_unheeding _) fun ctlp => ?_
      exact .ite (.bind (check_unheeding _ _) fun _ => .pure _) (.pure _)

end

end Simbus.Pcie
