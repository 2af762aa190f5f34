import Simbus.Clocked.Program
import Simbus.Pci.Signals
import Simbus.Words

/-!
# The libsimbus PCI client

State of a client of the C library, the READY/UNTIL exchange and the wait for
the next rising edge of the clock.

Callbacks are named by a handle and may change the user's own data, the break
flag, the retry rate, the memory regions and the configuration callbacks of
the device.  They do not start bus operations themselves.
-/

namespace Simbus.Pci

open FourValued Clocked

/-- `SIMBUS_PCI_ERROR`. -/
def simbusPciError : Int := -1

/-- `SIMBUS_PCI_FINISHED`. -/
def simbusPciFinished : Int := -2

/-- `SIMBUS_PCI_BREAK`. -/
def simbusPciBreak : Int := -3

/-- One memory region of a target; the callbacks may be null. -/
structure SimbusTranslation (Handle : Type) where
  flags : BitVec 32
  base : BitVec 64
  mask : BitVec 64
  need32 : Option Handle
  recv32 : Option Handle

/-- A region that is not in use. -/
def SimbusTranslation.unused {Handle : Type} : SimbusTranslation Handle where
  flags := 0
  base := 0
  mask := 0
  need32 := none
  recv32 := none

/-- The part of a client that its callbacks may change. -/
structure Device (User Handle : Type) where
  user : User
  breakFlag : Bool
  retryRate : Int
  memTarget : Fin 8 → SimbusTranslation Handle
  configNeed32 : Option Handle
  configRecv32 : Option Handle

/-- The callbacks a user has written. -/
structure Callbacks (User Handle : Type) where
  need32 :
    Handle → BitVec 64 → BitVec 32 → Device User Handle →
      BitVec 32 × Device User Handle
  recv32 :
    Handle → BitVec 64 → BitVec 32 → BitVec 32 → Device User Handle →
      Device User Handle

/-- State of the target machine. -/
inductive TargetState where
  | idle
  | dac
  | busBusy
  deriving Repr, DecidableEq

/--
`struct simbus_pci_s`.  `out` holds the bidirectional outputs and `seen` the
bidirectional inputs of the last UNTIL.  `randomState` is the stream of numbers
the random generator will return.
-/
structure SimbusPci (User Handle : Type) where
  ident : Nat
  randomState : Nat → BitVec 32
  outResetN : Logic4
  outReqN : Logic4
  out : BiSignals
  pcixcap : Logic4
  pciClk : Logic4
  pciGntN : Logic4
  pciIntN : Fin 4 → Fin 16 → Logic4
  seen : BiSignals
  dacAddrLo : BitVec 64
  targetState : TargetState
  device : Device User Handle

/-- What arrives from the server: an UNTIL, or FINISH (or a closed stream). -/
inductive Reply where
  | until (signals : SendSignals)
  | finish

/-- A function of the library. -/
abbrev Call (User Handle Value : Type) : Type :=
  Program (SimbusPci User Handle) Reply Value

section

variable {User Handle : Type}

/-- Low and high halves of the AD lines and of the C/BE# lanes. -/
def lowLine (line : Fin 32) : Fin 64 := ⟨line.val, by omega⟩

def highLine (line : Fin 32) : Fin 64 := ⟨line.val + 32, by omega⟩

def lowLane (lane : Fin 4) : Fin 8 := ⟨lane.val, by omega⟩

def highLane (lane : Fin 4) : Fin 8 := ⟨lane.val + 4, by omega⟩

namespace SimbusPci

/-- `init_simbus_pci` on zeroed memory. -/
def init
    (ident : Nat)
    (randomState : Nat → BitVec 32)
    (user : User) : SimbusPci User Handle where
  ident := ident
  randomState := randomState
  outResetN := .one
  outReqN := .one
  out := BiSignals.released
  pcixcap := .x
  pciClk := .x
  pciGntN := .x
  pciIntN := fun _ _ => .zero
  seen := BiSignals.ofBits fun
    | .ad _ => .x
    | _ => .zero
  dacAddrLo := 0
  targetState := .idle
  device :=
    { user := user
      breakFlag := false
      retryRate := 0
      memTarget := fun _ => .unused
      configNeed32 := none
      configRecv32 := none }

/-- The READY message. -/
def ready (pci : SimbusPci User Handle) : ClientSignals where
  resetN := some pci.outResetN
  reqN := some pci.outReqN
  intN := fun _ => none
  bi := pci.out

/-- The inputs after an UNTIL message. -/
def sample
    (pci : SimbusPci User Handle)
    (signals : SendSignals) : SimbusPci User Handle :=
  { pci with
    pciClk := signals.pciClk
    pcixcap := signals.pcixcap
    pciGntN := signals.gntN
    pciIntN := signals.intN.getD pci.pciIntN
    seen := signals.bi }

end SimbusPci

/-- `send_ready_command`. -/
def sendReadyCommand : Call User Handle Int :=
  Program.exchange fun
    | .finish => pure simbusPciFinished
    | .until signals => do
        Program.modifyState fun pci => pci.sample signals
        return 0

/-- Change the bidirectional outputs. -/
def drive (change : BiSignals → BiSignals) : Call User Handle Unit :=
  Program.modifyState fun pci => { pci with out := change pci.out }

/-! ## The rising edge -/

def bitXor (a b : Logic4) : Logic4 :=
  if a = .x ∨ a = .z ∨ b = .x ∨ b = .z then
    .x
  else if a ≠ b then
    .one
  else
    .zero

/-- The parity of some lines, started at 0. -/
def parityOf (lines : List Logic4) : Logic4 :=
  lines.foldl bitXor .zero

/-- PAR and PAR64 for the AD and C/BE# values clocked out last. -/
def calculateParity
    (pci : SimbusPci User Handle) : SimbusPci User Handle :=
  let low := (List.finRange 32).map fun line => pci.out.ad (lowLine line)
  let high := (List.finRange 32).map fun line => pci.out.ad (highLine line)
  let lowBe := (List.finRange 4).map fun lane =>
    -- Without C/BE# of its own, a target takes the C/BE# of the master.
    if pci.out.cBe 0 = .z then
      pci.seen.cBe (lowLane lane)
    else
      pci.out.cBe (lowLane lane)
  let highBe := (List.finRange 4).map fun lane => pci.out.cBe (highLane lane)
  { pci with
    out :=
      { pci.out with
        par := if ∀ line ∈ low, line = .z then .z else parityOf (low ++ lowBe)
        par64 :=
          if ∀ line ∈ high, line = .z then .z
          else parityOf (high ++ highBe) } }

/-- `__pci_next_posedge`, which ignores the results of the exchanges. -/
def pciNextPosedge : Call User Handle Unit := do
  Program.whileDo (fun pci => pci.pciClk = .one) do
    let _ ← sendReadyCommand
  Program.whileDo (fun pci => pci.pciClk = .zero) do
    let _ ← sendReadyCommand
  Program.modifyState calculateParity

/-- `do __pci_next_posedge(pci); while (pci->pci_irdy_n == BIT_1)`. -/
def pciNextPosedgeUntilIrdy : Call User Handle Unit := do
  pciNextPosedge
  Program.whileDo (fun pci => pci.seen.irdyN = .one) pciNextPosedge

/-- `while (pci->pci_trdy_n != BIT_0) __pci_next_posedge(pci)`. -/
def pciNextPosedgeUntilTrdy : Call User Handle Unit :=
  Program.whileDo (fun pci => pci.seen.trdyN ≠ .zero) pciNextPosedge

/-- `__undrive_bus`: PAR and PAR64 are left alone. -/
def undriveBus : Call User Handle Unit :=
  drive fun out =>
    { out with
      frameN := .z
      req64N := .z
      ack64N := .z
      irdyN := .z
      trdyN := .z
      stopN := .z
      devselN := .z
      cBe := fun _ => .z
      ad := fun _ => .z }

/-- `pcix_mode`. -/
def pcixMode (pci : SimbusPci User Handle) : Bool :=
  pci.pcixcap = .one

/-! ## Interrupts -/

/-- Bits of the interrupt mask for one of INTA# .. INTD#. -/
def intLineActive
    (pci : SimbusPci User Handle)
    (line : Fin 4) : BitVec 16 :=
  sampleWord fun idx =>
    if pci.pciIntN line idx = .zero then .one else .zero

/-- `intr_active`. -/
def intrActive (pci : SimbusPci User Handle) : BitVec 64 :=
  intLineActive pci 3 ++ intLineActive pci 2 ++
    intLineActive pci 1 ++ intLineActive pci 0

/-- `simbus_mt_genrand`, as a signed 32-bit number. -/
def genrand : Call User Handle Int := do
  let pci ← Program.getState
  Program.modifyState fun pci =>
    { pci with randomState := fun idx => pci.randomState (idx + 1) }
  return (pci.randomState 0).toInt

end

end Simbus.Pci
