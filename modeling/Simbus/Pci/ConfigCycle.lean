import Simbus.Pci.SharedBus

/-!
# Configuration cycles

`simbus_pci_config.c` and the configuration cycles of `simbus_pci_target.c`, from
the grant of the bus to the end of the cycle.  The target whose identifier is
the device number answers, with the low half of the address, and all other
targets wait for the end of the cycle.
-/

namespace Simbus.Pci

open FourValued Clocked PciProtocol

section

variable {User Handle Value : Type}
variable {pci : SimbusPci User Handle}

/-! ## The target -/

/-- A target that drives the word. -/
def driveRead
    (val : BitVec 32)
    (pci : SimbusPci User Handle) : SimbusPci User Handle :=
  { pci with out := driveLowAd val { pci.out with trdyN := .zero } }

/-- The results of a 32-bit read. -/
abbrev ReadResult : Type :=
  Int × BitVec 32 × BitVec 32

/-- A master that has released the bus. -/
def undriven (pci : SimbusPci User Handle) : SimbusPci User Handle :=
  { pci with
    out :=
      { pci.out with
        frameN := .z
        req64N := .z
        ack64N := .z
        irdyN := .z
        trdyN := .z
        stopN := .z
        devselN := .z
        cBe := fun _ => .z
        ad := fun _ => .z } }

/-- A master that drives a word. -/
def driveWrite (val ben : BitVec 32) (pci : SimbusPci User Handle) :
    SimbusPci User Handle :=
  { pci with
    out := writeDrive (val.setWidth 64) ben false (startData false pci).out }

theorem followBus_keeps :
    (followBus pci).device = pci.device ∧ (followBus pci).out = pci.out ∧
      (followBus pci).ident = pci.ident ∧
      (followBus pci).pciClk = pci.pciClk := by
  unfold followBus
  split <;> exact ⟨rfl, rfl, rfl, rfl⟩

/-- A target that a cycle does not concern waits on. -/
theorem afterEdge_unselected
    (callbacks : Callbacks User Handle)
    (requestBus : Call User Handle Unit)
    (clks : Nat)
    (identBelow : pci.ident < 16)
    (unselected : (targetAction pci).selects = false)
    (noBreak : pci.device.breakFlag = false) :
    (afterEdge (pciTargetStateMachine callbacks requestBus) 0 clks).start pci =
      (waitLoop (pciTargetStateMachine callbacks requestBus) 0 clks
        (intrActive (followBus pci))).start (followBus pci) := by
  have goesOn : ¬ ((followBus pci).device.breakFlag = true ∧
      (followBus pci).targetState = .idle) := by
    rw [followBus_keeps.1, noBreak]
    exact fun both => Bool.false_ne_true both.1
  rw [afterEdge, Program.start_bind,
    pciTargetStateMachine_unselected pci identBelow unselected,
    Behavior.finish_bind, Program.start_bind, Program.start_getState,
    Behavior.finish_bind, if_neg goesOn]

/-! ## What is seen of the address -/

end

section

variable {User Handle Value : Type}

end

end Simbus.Pci
