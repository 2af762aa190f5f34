import Simbus.Axi4.Session
import Simbus.Clocked.Abandoned

/-!
# FINISH on AXI4

`__axi4_next_posedge` and the loop of `simbus_axi4_slave` throw the results of
their exchanges away.  Nothing of the library that waits for the clock returns
after a FINISH.
-/

namespace Simbus.Axi4

open FourValued Clocked

section

variable {User Value : Type}

/-- An UNTIL. -/
def MasterReply.IsUntil : MasterReply → Prop
  | .until _ _ => True
  | .finish => False

/-- An UNTIL. -/
def SlaveReply.IsUntil : SlaveReply → Prop
  | .until _ _ => True
  | .finish => False

/-- Wherever the call waits it never returns after a FINISH. -/
abbrev Unheeding (call : MasterCall User Value) : Prop :=
  Deaf MasterReply.IsUntil .finish (fun _ => True) call

/-- The same for a slave. -/
abbrev SlaveUnheeding (call : SlaveCode User Value) : Prop :=
  Deaf SlaveReply.IsUntil .finish (fun _ => True) call

/-! ## The master -/

theorem axi4ReadyCommand_takes :
    TakesReply MasterReply.IsUntil .finish (fun _ => True) simbusAxi4Finished
      (axi4ReadyCommand : MasterCall User Int) where
  sends := fun _ => rfl
  ended := fun _ => rfl
  taken := by
    intro bus _ reply isUntil
    cases reply with
    | «until» aclk text =>
        by_cases lengths : SimbusAxi4.HasLengths
            (SimbusAxi4.slaveLength bus.widths) text
        · refine .inl ⟨bus.sampleMaster aclk text, ?_, trivial⟩
          simp [axi4ReadyCommand, lengths]
        · refine .inr ⟨bus, ?_⟩
          simp [axi4ReadyCommand, lengths]
    | finish =>
        exact isUntil.elim

theorem modifyState_unheeding (change : SimbusAxi4 User → SimbusAxi4 User) :
    Unheeding (Program.modifyState change) :=
  .modifyState fun _ => id

theorem axi4NextPosedge_unheeding :
    Unheeding (axi4NextPosedge : MasterCall User Unit) :=
  .bind (poll_keeps axi4ReadyCommand_takes) fun _ =>
    poll_keeps axi4ReadyCommand_takes

theorem simbusAxi4Wait_unheeding
    (clks : Nat)
    (irqMask : Option (BitVec 32)) :
    Unheeding
      (simbusAxi4Wait clks irqMask :
        MasterCall User (Int × Option (BitVec 32))) := by
  refine .getState fun bus => .ite (.pure _) (.loop (fun clks => ?_) clks)
  cases clks with
  | zero =>
      exact .pure _
  | succ clks =>
      refine .bind axi4NextPosedge_unheeding fun _ => .getState fun bus => ?_
      exact .ite (.pure _) (.pure _)

theorem simbusAxi4Reset_unheeding (width settle : Nat) :
    Unheeding (simbusAxi4Reset width settle : MasterCall User Unit) := by
  refine .bind (.assert _) fun _ => .bind (.assert _) fun _ => ?_
  refine .bind (modifyState_unheeding _) fun _ => ?_
  refine .bind (simbusAxi4Wait_unheeding _ _) fun _ => ?_
  refine .bind (modifyState_unheeding _) fun _ => ?_
  exact .bind (simbusAxi4Wait_unheeding _ _) fun _ => .pure _

theorem waitForResp_unheeding :
    Unheeding (waitForResp : MasterCall User Resp) := by
  refine .loop (fun current => ?_) _
  obtain ⟨respCode, responseTimer⟩ := current
  refine .getState fun bus => .ite ?_ (.pure _)
  refine .bind axi4NextPosedge_unheeding fun _ => ?_
  refine .bind (modifyState_unheeding _) fun _ => .getState fun bus => ?_
  refine .ite (.bind (modifyState_unheeding _) fun _ => .pure _) ?_
  exact .ite (.ite (.pure _) (.pure _)) (.pure _)

theorem writeWord_unheeding
    {width : Nat}
    (clearFrom size : Nat)
    (addr : BitVec 64)
    (prot : BitVec 32)
    (data : BitVec width) :
    Unheeding
      (writeWord clearFrom size addr prot data : MasterCall User Resp) :=
  .bind (.assert _) fun _ => .bind (modifyState_unheeding _) fun _ =>
    waitForResp_unheeding

theorem readWord_unheeding
    (width size : Nat)
    (addr : BitVec 64)
    (prot : BitVec 32) :
    Unheeding
      (readWord width size addr prot :
        MasterCall User (Resp × BitVec width)) := by
  refine .getState fun bus => .bind (modifyState_unheeding _) fun _ => ?_
  refine .loop (fun current => ?_) _
  obtain ⟨respCode, data⟩ := current
  refine .getState fun bus => .ite ?_ (.pure _)
  refine .bind axi4NextPosedge_unheeding fun _ => ?_
  refine .bind (modifyState_unheeding _) fun _ => .getState fun bus => ?_
  exact .ite (.bind (modifyState_unheeding _) fun _ => .pure _) (.pure _)

theorem assertFits_unheeding (width : Nat) (addr : BitVec 64) :
    Unheeding (assertFits width addr : MasterCall User Unit) :=
  .bind (.assert _) fun _ => .assert _

theorem assertReads_unheeding (width : Nat) (addr : BitVec 64) :
    Unheeding (assertReads width addr : MasterCall User Unit) :=
  .bind (.assert _) fun _ => .bind (.assert _) fun _ =>
    .bind (.assert _) fun _ => .assert _

theorem perform_unheeding (access : Access) :
    Unheeding
      (access.perform :
        MasterCall User (Resp × BitVec access.width.bits)) := by
  obtain ⟨direction, width, addr, prot, data⟩ := access
  cases direction with
  | write =>
      cases width with
      | w8 =>
          exact .bind (.bind (.assert _) fun _ => writeWord_unheeding _ _ _ _ _)
            fun _ => .pure _
      | w16 | w32 | w64 =>
          exact .bind (.bind (assertFits_unheeding _ _) fun _ =>
            writeWord_unheeding _ _ _ _ _) fun _ => .pure _
  | read =>
      cases width with
      | w8 =>
          exact .bind (.assert _) fun _ => readWord_unheeding _ _ _ _
      | w16 | w32 | w64 =>
          exact .bind (assertReads_unheeding _ _) fun _ =>
            readWord_unheeding _ _ _ _

/-- Nothing that a master does with the bus heeds a FINISH. -/
theorem Command.perform_unheeding (command : Command) :
    Unheeding (command.perform : MasterCall User Unit) := by
  cases command with
  | wait clks irqMask =>
      exact .bind (simbusAxi4Wait_unheeding _ _) fun _ => .pure _
  | reset width settle =>
      exact simbusAxi4Reset_unheeding _ _
  | access one =>
      exact .bind (Axi4.perform_unheeding one) fun _ => .pure _

/-! ## The slave -/

theorem axi4sReadyCommand_takes :
    TakesReply SlaveReply.IsUntil .finish (fun _ => True) simbusAxi4Finished
      (axi4sReadyCommand : SlaveCode User Int) where
  sends := fun _ => rfl
  ended := fun _ => rfl
  taken := by
    intro bus _ reply isUntil
    cases reply with
    | «until» aclk text =>
        by_cases lengths : SimbusAxi4.HasLengths
            (SimbusAxi4.masterLength bus.widths) text
        · refine .inl ⟨bus.sampleSlave aclk text, ?_, trivial⟩
          simp [axi4sReadyCommand, lengths]
        · refine .inr ⟨bus, ?_⟩
          simp [axi4sReadyCommand, lengths]
    | finish =>
        exact isUntil.elim

theorem doReset_unheeding :
    SlaveUnheeding (doReset : SlaveCode User Unit) :=
  .modifyState fun _ => id

theorem doSlaveMachine_unheeding :
    SlaveUnheeding (doSlaveMachine : SlaveCode User Unit) := by
  intro step bus _
  cases ran : slaveMachine bus with
  | none =>
      have fails : doSlaveMachine.start bus =
          .fail (bus.recordEdge bus.toAxi4Signals []) := by
        simp only [doSlaveMachine, ran]
      rw [fails]
      exact fun inputs _ => atPoint_fail _ inputs
  | some next =>
      have ends : doSlaveMachine.start bus =
          .finish () (next.finish.recordEdge bus.toAxi4Signals next.calls) := by
        simp only [doSlaveMachine, ran]
      rw [ends]
      exact atPoints_finish ⟨step, trivial⟩

theorem simbusAxi4Slave_unheeding (dev : SlaveDevice User) :
    SlaveUnheeding (simbusAxi4Slave dev) := by
  refine .bind (.assert _) fun _ => ?_
  refine .bind (.modifyState fun _ => id) fun _ => .loop (fun _ => ?_) ()
  refine .bind (poll_keeps axi4sReadyCommand_takes) fun _ => ?_
  refine .bind (.getState fun bus => .ite doReset_unheeding (.pure _))
    fun _ => ?_
  refine .bind (poll_keeps axi4sReadyCommand_takes) fun _ => ?_
  exact .bind (.getState fun bus => .ite doReset_unheeding
    doSlaveMachine_unheeding) fun _ => .pure _

end

end Simbus.Axi4
