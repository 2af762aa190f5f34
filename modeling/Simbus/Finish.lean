import Simbus.Axi4.Finish
import Simbus.P2p.Finish
import Simbus.Pci.FinishWait
import Simbus.Pci.TargetIdle
import Simbus.Pcie.Finish

/-!
# FINISH in the four client libraries

A call that waits on a bus returns after a FINISH only if the loop that it waits in
looks at the result of its exchanges, and its caller at that of the loop.  The clock
waits of a point-to-point link do so, and `simbus_pci_wait` in its clock loops.
-/

namespace Simbus

open FourValued Clocked

/-- The calls of the libraries that wait on a bus. -/
inductive LibraryCall (User Handle : Type) : Type → Type → Type → Type 1 where
  | p2pClockPosedge (cycles : Nat) :
      LibraryCall User Handle (P2p.Client User) P2p.Reply Int
  | p2pClockNegedge (cycles : Nat) :
      LibraryCall User Handle (P2p.Client User) P2p.Reply Int
  | pciWait
      (callbacks : Pci.Callbacks User Handle)
      (stack clks : Nat)
      (irq : Option (BitVec 64)) :
      LibraryCall User Handle (Pci.SimbusPci User Handle) Pci.Reply
        (Int × Option (BitVec 64))
  | pciMaster
      (callbacks : Pci.Callbacks User Handle)
      (stack : Nat)
      (operation : Pci.MasterOperation) :
      LibraryCall User Handle (Pci.SimbusPci User Handle) Pci.Reply Unit
  | axi4Master (command : Axi4.Command) :
      LibraryCall User Handle (Axi4.SimbusAxi4 User) Axi4.MasterReply Unit
  | axi4Slave (dev : Axi4.SlaveDevice User) :
      LibraryCall User Handle (Axi4.SimbusAxi4 User) Axi4.SlaveReply Int
  | pcie (stack : Nat) (operation : Pcie.Operation) :
      LibraryCall User Handle (Pcie.SimbusPcieTlp User) Pcie.Reply Unit

namespace LibraryCall

variable {User Handle State Input Value : Type}

/-- What is called. -/
def program :
    LibraryCall User Handle State Input Value → Program State Input Value
  | .p2pClockPosedge cycles => P2p.simbusP2pClockPosedge cycles
  | .p2pClockNegedge cycles => P2p.simbusP2pClockNegedge cycles
  | .pciWait callbacks stack clks irq =>
      Pci.simbusPciWait callbacks stack clks irq
  | .pciMaster callbacks stack operation => operation.perform callbacks stack
  | .axi4Master command => command.perform
  | .axi4Slave dev => Axi4.simbusAxi4Slave dev
  | .pcie stack operation => operation.perform stack

/-- FINISH, or the end of the connection. -/
def finish : LibraryCall User Handle State Input Value → Input
  | .p2pClockPosedge _ => .finish
  | .p2pClockNegedge _ => .finish
  | .pciWait _ _ _ _ => .finish
  | .pciMaster _ _ _ => .finish
  | .axi4Master _ => .finish
  | .axi4Slave _ => .finish
  | .pcie _ _ => .finish

/-- What a server sends before: on PCI the clock is always high or low. -/
def FromServer : LibraryCall User Handle State Input Value → Input → Prop
  | .p2pClockPosedge _ => P2p.Reply.IsUntil
  | .p2pClockNegedge _ => P2p.Reply.IsUntil
  | .pciWait _ _ _ _ => Pci.Reply.OnLevel
  | .pciMaster _ _ _ => Pci.Reply.OnLevel
  | .axi4Master _ => Axi4.MasterReply.IsUntil
  | .axi4Slave _ => Axi4.SlaveReply.IsUntil
  | .pcie _ _ => Pcie.Reply.IsUntil

/-- A client that has got the grant has seen that clock. -/
def Synced : LibraryCall User Handle State Input Value → State → Prop
  | .p2pClockPosedge _ => fun _ => True
  | .p2pClockNegedge _ => fun _ => True
  | .pciWait _ _ _ _ => Pci.SimbusPci.Synced
  | .pciMaster _ _ _ => Pci.SimbusPci.Synced
  | .axi4Master _ => fun _ => True
  | .axi4Slave _ => fun _ => True
  | .pcie _ _ => fun _ => True

/--
After these replies the call is a clock wait of a point-to-point link, or a wait of
the user on PCI that is in its clock loops and not in the target machine.
-/
def HeedsFinish :
    LibraryCall User Handle State Input Value → State → List Input → Prop
  | .p2pClockPosedge _ => fun _ _ => True
  | .p2pClockNegedge _ => fun _ _ => True
  | .pciWait callbacks stack _ _ => fun pci inputs =>
      Pci.InClockLoops
        (Pci.pciTargetStateMachine callbacks
          (Pci.pciRequestBus callbacks stack))
        pci.withoutBreak inputs
  | .pciMaster _ _ _ => fun _ _ => False
  | .axi4Master _ => fun _ _ => False
  | .axi4Slave _ => fun _ _ => False
  | .pcie _ _ => fun _ _ => False

/-- The result that tells of the end, where the call has one. -/
def Reports : LibraryCall User Handle State Input Value → Value → Prop
  | .p2pClockPosedge _ => fun rc => rc = -1
  | .p2pClockNegedge _ => fun rc => rc = -1
  | .pciWait _ _ _ _ => fun result => result.1 = Pci.simbusPciFinished
  | .pciMaster _ _ _ => fun _ => True
  | .axi4Master _ => fun _ => True
  | .axi4Slave _ => fun rc => rc = Axi4.simbusAxi4Finished
  | .pcie _ _ => fun _ => True

/-- The call returns after finitely many more exchanges, and says why. -/
def ReturnsOnFinish
    (call : LibraryCall User Handle State Input Value)
    (state : State)
    (inputs : List Input) : Prop :=
  ∃ count value final rest,
    (call.program.start state).run
        (inputs ++ List.replicate count call.finish) =
      .finished value final rest ∧
    call.Reports value

variable {call : LibraryCall User Handle State Input Value}
variable {state now : State}
variable {inputs : List Input}

theorem returnsOnFinish_of_heeds
    {leaves : Value → State → Prop}
    (waits : (call.program.start state).run inputs = .waiting now)
    (heeds : Heeds call.finish leaves
      ((call.program.start state).resumeAll inputs))
    (reports : ∀ value state, leaves value state → call.Reports value) :
    call.ReturnsOnFinish state inputs := by
  obtain ⟨value, final, finished, reached⟩ := heeds
  rw [Behavior.run_resumeAll waits] at finished
  exact ⟨1, value, final, [], finished, reports value final reached⟩

theorem not_returnsOnFinish_of_lost
    (waits : (call.program.start state).run inputs = .waiting now)
    (lost : Lost call.finish
      ((call.program.start state).resumeAll inputs)) :
    ¬ call.ReturnsOnFinish state inputs := by
  rintro ⟨count, value, final, rest, finished, _⟩
  exact lost.not_stopsAfter waits ⟨count, value, final, rest, finished⟩

/-- What never returns after a FINISH heeds none. -/
theorem returnsOnFinish_iff_of_deaf
    {allowed : Input → Prop}
    {holds : State → Prop}
    (isDeaf : Deaf allowed call.finish holds call.program)
    (before : holds state)
    (areAllowed : ∀ input ∈ inputs, allowed input)
    (waits : (call.program.start state).run inputs = .waiting now) :
    call.ReturnsOnFinish state inputs ↔ False :=
  iff_false_intro (not_returnsOnFinish_of_lost waits
    (isDeaf.lost before areAllowed waits))

end LibraryCall

open LibraryCall

/--
A call that a FINISH or the end of the connection meets while it waits returns, and
a wait with the result that tells so, if and only if it waits where it heeds it.
-/
theorem returnsOnFinish_iff
    {User Handle State Input Value : Type}
    (call : LibraryCall User Handle State Input Value)
    {state now : State}
    (synced : call.Synced state)
    {inputs : List Input}
    (fromServer : ∀ input ∈ inputs, call.FromServer input)
    (waits : (call.program.start state).run inputs = .waiting now) :
    call.ReturnsOnFinish state inputs ↔ call.HeedsFinish state inputs := by
  cases call with
  | p2pClockPosedge cycles =>
      have heeds := (P2p.simbusP2pClockPosedge_heeds cycles inputs
        fromServer).waiting waits
      exact iff_true_intro
        (returnsOnFinish_of_heeds waits heeds fun _ _ => id)
  | p2pClockNegedge cycles =>
      have heeds := (P2p.simbusP2pClockNegedge_heeds cycles inputs
        fromServer).waiting waits
      exact iff_true_intro
        (returnsOnFinish_of_heeds waits heeds fun _ _ => id)
  | pciWait callbacks stack clks irq =>
      have unheeding := Pci.pciTargetStateMachine_unheeding callbacks
        (Pci.pciRequestBus_opens callbacks stack)
      rcases Pci.simbusPciWaitWith_point unheeding synced fromServer waits with
        ⟨inLoops, heeds⟩ | ⟨outside, lost⟩
      · refine iff_of_true (returnsOnFinish_of_heeds waits heeds ?_) inLoops
        rintro result final rfl
        rfl
      · exact iff_of_false (not_returnsOnFinish_of_lost waits lost) outside
  | pciMaster callbacks stack operation =>
      exact returnsOnFinish_iff_of_deaf
        (operation.perform_unheeding callbacks stack) synced fromServer waits
  | axi4Master command =>
      exact returnsOnFinish_iff_of_deaf command.perform_unheeding trivial
        fromServer waits
  | axi4Slave dev =>
      exact returnsOnFinish_iff_of_deaf (Axi4.simbusAxi4Slave_unheeding dev)
        trivial fromServer waits
  | pcie stack operation =>
      exact returnsOnFinish_iff_of_deaf (operation.perform_unheeding stack)
        trivial fromServer waits

/-- A wait for the first clock returns. -/
theorem returnsOnFinish_first :
    (LibraryCall.pciWait Pci.noCallbacks 1 1 none).ReturnsOnFinish
      Pci.bystander [] :=
  (returnsOnFinish_iff (.pciWait Pci.noCallbacks 1 1 none)
    (Pci.SimbusPci.init_synced 1 (fun _ => 0) ())
    (List.forall_mem_nil _) rfl).mpr
    ⟨[], [], [], Pci.bystander.withoutBreak, rfl, .none, rfl⟩

/-- A master that has just connected. -/
def connected : Axi4.SimbusAxi4 Unit :=
  Axi4.SimbusAxi4.init () ⟨32, 32, 4, 4, 1⟩

/-- A wait for the first clock, on AXI4. -/
def firstWait :
    LibraryCall Unit Unit (Axi4.SimbusAxi4 Unit) Axi4.MasterReply Unit :=
  .axi4Master (.wait 1 none)

/-- It goes round for ever. -/
theorem returnsOnFinish_never :
    (firstWait.program.start connected).run [] = .waiting connected ∧
      ¬ firstWait.ReturnsOnFinish connected [] := by
  have waits : (firstWait.program.start connected).run [] =
      .waiting connected := rfl
  have isDeaf : Deaf Axi4.MasterReply.IsUntil firstWait.finish
      (fun _ => True) firstWait.program :=
    Axi4.Command.perform_unheeding (.wait 1 none)
  exact ⟨waits, not_returnsOnFinish_of_lost waits
    (isDeaf.lost trivial (List.forall_mem_nil _) waits)⟩

end Simbus
