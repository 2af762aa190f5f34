import Simbus.Pci.Target

/-!
# The master operations of the libsimbus PCI client

`simbus_pci.c`, `simbus_pci_rw32.c`, `simbus_pci_rw64.c` and
`simbus_pci_config.c`.  Waiting runs the target machine, whose split
completions request the bus and wait again, so the functions that wait are
defined for a bounded `stack` of such nested calls.
-/

namespace Simbus.Pci

open FourValued Clocked

/-- `GPCI_MASTER_ABORT`. -/
def gpciMasterAbort : Int := -1

/-- `GPCI_TARGET_RETRY`. -/
def gpciTargetRetry : Int := -2

section

variable {User Handle : Type}

/-! ## Waiting -/

/-- Exchange until a condition on the clock fails or the server has finished. -/
def exchangeWhileClk
    (condition : Logic4 → Bool)
    (rc : Int) : Call User Handle Int :=
  Program.loop (fun rc => do
    let pci ← Program.getState
    if condition pci.pciClk ∧ 0 ≤ rc then
      let rc ← sendReadyCommand
      return .inl rc
    else
      return .inr rc) rc

/-- The loop of `simbus_pci_wait`: an early result, or the active interrupts. -/
def waitLoop
    (stateMachine : Call User Handle Unit)
    (useIrq : BitVec 64) :
    Nat → BitVec 64 → Call User Handle (Except Int (BitVec 64))
  | 0, mask => return .ok mask
  | clks + 1, mask => do
      if mask &&& useIrq ≠ 0 then
        return .ok mask
      else
        let rc ← exchangeWhileClk (fun clk => clk ≠ .zero) 0
        let rc ← exchangeWhileClk (fun clk => clk ≠ .one) rc
        if rc < 0 then
          return .error rc
        else
          stateMachine
          let pci ← Program.getState
          if pci.device.breakFlag ∧ pci.targetState = .idle then
            return .error simbusPciBreak
          else
            waitLoop stateMachine useIrq clks (intrActive pci)

/-- The result of a wait: whether any interrupt is active. -/
def waitResult (mask : BitVec 64) : Int :=
  if mask = 0 then 0 else 1

/-- `simbus_pci_wait`: the result and the new value of `*irq`. -/
def simbusPciWaitWith
    (stateMachine : Call User Handle Unit)
    (clks : Nat)
    (irq : Option (BitVec 64)) :
    Call User Handle (Int × Option (BitVec 64)) := do
  if clks = 0 then
    let mask := intrActive (← Program.getState)
    return (waitResult mask, irq.map (· &&& mask))
  else
    Program.modifyState fun pci =>
      { pci with device := { pci.device with breakFlag := false } }
    match ← waitLoop stateMachine (irq.getD 0) clks 0 with
    | .error rc => return (rc, irq)
    | .ok mask => return (waitResult mask, irq.map (· &&& mask))

/-- The bus is not granted or the previous master still holds it. -/
def busNotReady (pci : SimbusPci User Handle) : Prop :=
  pci.pciGntN ≠ .zero ∨ pci.seen.frameN = .zero ∨ pci.seen.irdyN = .zero

instance (pci : SimbusPci User Handle) : Decidable (busNotReady pci) :=
  inferInstanceAs (Decidable (_ ∨ _))

/-- The wait for GNT#; the count ends in a failed assertion. -/
def requestLoop
    (stateMachine : Call User Handle Unit) : Nat → Call User Handle Unit
  | 0 => Program.abort
  | count + 1 => do
      if busNotReady (← Program.getState) then
        let _ ← simbusPciWaitWith stateMachine 1 none
        requestLoop stateMachine count
      else
        return ()

def driveReqN (level : Logic4) : Call User Handle Unit :=
  Program.modifyState fun pci => { pci with outReqN := level }

/-- How often a client waits for the bus before its assertion fails. -/
def requestCount : Nat := 4096

/-- `__pci_request_bus`, for the machine that runs during the wait. -/
def requestBusWith
    (stateMachine : Call User Handle Unit) : Call User Handle Unit := do
  driveReqN .zero
  requestLoop stateMachine requestCount
  driveReqN .one

/-- `__pci_request_bus`. -/
def pciRequestBus
    (callbacks : Callbacks User Handle) : Nat → Call User Handle Unit
  | 0 => Program.abort
  | stack + 1 =>
      requestBusWith
        (pciTargetStateMachine callbacks (pciRequestBus callbacks stack))

/-- `simbus_pci_wait`. -/
def simbusPciWait
    (callbacks : Callbacks User Handle)
    (stack : Nat)
    (clks : Nat)
    (irq : Option (BitVec 64)) :
    Call User Handle (Int × Option (BitVec 64)) :=
  simbusPciWaitWith
    (pciTargetStateMachine callbacks (pciRequestBus callbacks stack))
    clks irq

/-- `simbus_pci_wait_break`. -/
def simbusPciWaitBreak : Call User Handle Int := do
  Program.modifyState fun pci =>
    { pci with device := { pci.device with breakFlag := true } }
  return 0

/-- `simbus_pci_reset`. -/
def simbusPciReset
    (callbacks : Callbacks User Handle)
    (stack width settle : Nat) : Call User Handle Unit := do
  Program.assert fun _ => 0 < width
  Program.assert fun _ => 0 < settle
  Program.modifyState fun pci => { pci with outResetN := .zero }
  let _ ← simbusPciWait callbacks stack width none
  Program.modifyState fun pci => { pci with outResetN := .one }
  let _ ← simbusPciWait callbacks stack settle none

/-! ## Address and data phases -/

/-- The signals an address phase starts with. -/
def startFrame (flag64 : Bool) (out : BiSignals) : BiSignals :=
  { out with
    req64N := if flag64 then .zero else .one
    frameN := .zero
    irdyN := .one
    trdyN := .z
    stopN := .z
    devselN := .z }

/-- The address; a 64-bit transaction drives the high half as well. -/
def driveAddr (addr : BitVec 64) (out : BiSignals) : BiSignals :=
  if out.req64N = .zero then
    { out with ad := driveWord addr }
  else
    driveAddress (addr.setWidth 32) out

/-- The attribute phase and the turnaround of PCI-X. -/
def pcixAttributePhase (ben : BitVec 32) : Call User Handle Unit := do
  let pci ← Program.getState
  let attrA : BitVec 32 :=
    (BitVec.ofNat 32 (pci.ident * 8) &&& 0xf8) <<< 8
  -- The loop tests bit 0 for every line.
  drive (driveAddress (if attrA.getLsbD 0 then BitVec.allOnes 32 else 0))
  let attrC := ben &&& 0x0f
  drive (driveLowBe
    (BitVec.ofBool (attrC &&& 5 ≠ 0) ++ BitVec.ofBool (attrC &&& 4 ≠ 0) ++
      BitVec.ofBool (attrC &&& 2 ≠ 0) ++ BitVec.ofBool (attrC &&& 1 ≠ 0)))
  pciNextPosedge
  -- A turnaround cycle.
  drive (driveLowBe 0xf)
  pciNextPosedge

/-- The attribute phase, which conventional PCI does not have. -/
def attributePhase (ben : BitVec 32) : Call User Handle Unit := do
  if pcixMode (← Program.getState) then
    pcixAttributePhase ben
  else
    pure ()

/-- The first clock of a dual address cycle, for a 64-bit address. -/
def dualAddressPhase (addrHigh : BitVec 32) : Call User Handle Unit :=
  if addrHigh ≠ 0 then do
    drive (driveLowBe 0xd)
    pciNextPosedge
    drive (driveAddress addrHigh)
  else
    pure ()

/-- The signals of the data phase: the last one is marked by FRAME#. -/
def startData
    (burst : Bool)
    (pci : SimbusPci User Handle) : SimbusPci User Handle :=
  { pci with
    out :=
      { pci.out with
        frameN :=
          if pci.out.req64N ≠ .zero ∧ burst = false ∧ ¬ pcixMode pci then
            .one
          else
            pci.out.frameN
        irdyN := .zero } }

/-- `__address_command`. -/
def addressCommand
    (addr : BitVec 64)
    (cmd ben : BitVec 32)
    (flag64 burst : Bool) : Call User Handle Unit := do
  drive (startFrame flag64)
  drive (driveAddr addr)
  dualAddressPhase ((addr >>> 32).setWidth 32)
  drive (driveLowBe (cmd.setWidth 4))
  pciNextPosedge
  attributePhase ben
  Program.modifyState (startData burst)

/-- Look for DEVSEL# on this and some more edges. -/
def devselWithin : Nat → Call User Handle Bool
  | 0 => return (← Program.getState).seen.devselN = .zero
  | clks + 1 => do
      if (← Program.getState).seen.devselN = .zero then
        return true
      else
        pciNextPosedge
        devselWithin clks

/-- A target that takes all 64 bits makes this data phase the last one. -/
def acceptAck64 (pci : SimbusPci User Handle) : SimbusPci User Handle :=
  if pci.out.req64N = .zero ∧ pci.seen.ack64N = .zero then
    { pci with out := { pci.out with frameN := .one, req64N := .one } }
  else
    pci

/-- `__wait_for_devsel`. -/
def waitForDevsel : Call User Handle Int := do
  if ← devselWithin 3 then
    Program.modifyState acceptAck64
    return 0
  else
    undriveBus
    return gpciMasterAbort

/-- A word read and the mask of its X and Z bits. -/
structure ReadWord where
  val : BitVec 64
  valx : BitVec 64

/-- The AD lines as a read word; X and Z count as 1. -/
def collectRead (pci : SimbusPci User Handle) : ReadWord :=
  let valid (line : Fin 64) : Bool :=
    line.val < 32 ∨ pci.seen.ack64N = .zero
  { val := sampleWord fun line =>
      if valid line ∧ pci.seen.ad line ≠ .zero then .one else .zero
    valx := sampleWord fun line =>
      if valid line ∧ (pci.seen.ad line = .x ∨ pci.seen.ad line = .z) then
        .one
      else
        .zero }

/-- The loop of `__wait_for_read`; the count ends in a failed assertion. -/
def waitForReadLoop : Nat → Call User Handle (Except Int ReadWord)
  | 0 => Program.abort
  | count + 1 => do
      let pci ← Program.getState
      if pci.seen.trdyN ≠ .zero then
        if pci.seen.stopN = .zero then
          return .error gpciTargetRetry
        else
          pciNextPosedge
          waitForReadLoop count
      else
        return .ok (collectRead pci)

/-- `__wait_for_read`. -/
def waitForRead : Call User Handle (Except Int ReadWord) :=
  waitForReadLoop 256

/-- The values `__setup_for_write` drives. -/
def writeDrive
    (val : BitVec 64)
    (ben : BitVec 32)
    (flag64 : Bool)
    (out : BiSignals) : BiSignals :=
  if flag64 then
    { out with cBe := driveWord (ben.setWidth 8), ad := driveWord val }
  else
    driveLowAd (val.setWidth 32)
      { out with cBe := driveWord (0xf#4 ++ ben.setWidth 4) }

/-- `__setup_for_write`. -/
def setupForWrite
    (val : BitVec 64)
    (ben : BitVec 32)
    (flag64 : Bool) : Call User Handle Unit := do
  drive (writeDrive val ben flag64)
  pciNextPosedge

/-- Release the bus and settle. -/
def releaseBus : Call User Handle Unit := do
  undriveBus
  pciNextPosedge

/-! ## Transactions -/

/-- Everything from the request to the end of the address phases. -/
def startTransaction
    (callbacks : Callbacks User Handle)
    (stack : Nat)
    (addr : BitVec 64)
    (cmd ben : BitVec 32)
    (flag64 burst : Bool) : Call User Handle Unit := do
  pciRequestBus callbacks stack
  driveReqN .one
  addressCommand addr cmd ben flag64 burst

/-- A single word, not a burst: PCI-X signals that in another way. -/
def endReadFrame (pci : SimbusPci User Handle) : SimbusPci User Handle :=
  { pci with
    out :=
      { pci.out with
        frameN := if pcixMode pci then pci.out.frameN else .one
        req64N := .one } }

/-- PCI-X raises IRDY# and FRAME# one clock after the data. -/
def pcixEndRead : Call User Handle Unit := do
  if pcixMode (← Program.getState) then
    pciNextPosedge
    drive fun out => { out with irdyN := .one, frameN := .one }
    pciNextPosedge
  else
    pure ()

/-- `__generic_pci_read32`: the result code and the two words written. -/
def genericPciRead32
    (callbacks : Callbacks User Handle)
    (stack : Nat)
    (addr : BitVec 64)
    (cmd ben : BitVec 32)
    (resultx : BitVec 32) :
    Call User Handle (Int × BitVec 32 × BitVec 32) := do
  startTransaction callbacks stack addr cmd ben false false
  drive fun out => releaseAd (driveLowBe (ben.setWidth 4) out)
  pciNextPosedge
  if (← waitForDevsel) < 0 then
    undriveBus
    pciNextPosedge
    return (gpciMasterAbort, 0xffffffff, resultx)
  else
    Program.modifyState endReadFrame
    match ← waitForRead with
    | .error rc =>
        releaseBus
        return (rc, 0xffffffff, 0xffffffff)
    | .ok word =>
        pcixEndRead
        releaseBus
        return (0, word.val.setWidth 32, word.valx.setWidth 32)

/-- `__generic_pci_write32`. -/
def genericPciWrite32
    (callbacks : Callbacks User Handle)
    (stack : Nat)
    (addr : BitVec 64)
    (cmd : BitVec 32)
    (val ben : BitVec 32) : Call User Handle Int := do
  startTransaction callbacks stack addr cmd ben false false
  setupForWrite (val.setWidth 64) ben false
  let rc ← waitForDevsel
  if rc < 0 then
    return rc
  else
    pciNextPosedgeUntilTrdy
    releaseBus
    return 0

/-- `simbus_pci_read32_xz`: the result code, the word and its X mask. -/
def simbusPciRead32Xz
    (callbacks : Callbacks User Handle)
    (stack : Nat)
    (addr : BitVec 64)
    (ben : BitVec 32) : Call User Handle (Int × BitVec 32 × BitVec 32) :=
  Program.loop (fun valx => do
    let (rc, val, valx) ←
      genericPciRead32 callbacks stack addr 0xf6 ben valx
    if rc = gpciTargetRetry then
      return .inl valx
    else if 0 ≤ rc then
      return .inr (0, val, valx)
    else
      return .inr (simbusPciError, val, valx)) (0xffffffff : BitVec 32)

/-- `simbus_pci_read32`. -/
def simbusPciRead32
    (callbacks : Callbacks User Handle)
    (stack : Nat)
    (addr : BitVec 64)
    (ben : BitVec 32) : Call User Handle (BitVec 32) := do
  let (_, val, valx) ← simbusPciRead32Xz callbacks stack addr ben
  return if valx ≠ 0 then 0xffffffff else val

/-- `simbus_pci_write32`, which reports a missing response only as a text. -/
def simbusPciWrite32
    (callbacks : Callbacks User Handle)
    (stack : Nat)
    (addr : BitVec 64)
    (val ben : BitVec 32) : Call User Handle Unit := do
  let _ ← genericPciWrite32 callbacks stack addr 0xf7 val ben

/-- The words of a burst after the first one; the number left out. -/
def writeBurstRest
    (beLn : BitVec 32) : List (BitVec 32) → Call User Handle Nat
  | [] => return 0
  | val :: rest => do
      -- The last word is announced by FRAME#.
      drive fun out =>
        { out with frameN := if rest = [] then .one else out.frameN }
      setupForWrite (val.setWidth 64) (if rest = [] then beLn else 0) false
      pciNextPosedgeUntilTrdy
      if (← Program.getState).seen.stopN = .zero then
        -- The target has disconnected: clock out a completion.
        drive fun out => { out with frameN := .one, irdyN := .one }
        pciNextPosedge
        return rest.length
      else
        writeBurstRest beLn rest

/-- `simbus_pci_write32b`. -/
def simbusPciWrite32b
    (callbacks : Callbacks User Handle)
    (stack : Nat)
    (addr : BitVec 64)
    (words : List (BitVec 32))
    (beFn beLn : BitVec 32) : Call User Handle Int :=
  match words with
  | [] => Program.abort
  | [val] => do
      Program.assert fun _ => beFn = beLn
      simbusPciWrite32 callbacks stack addr val beFn
      return 1
  | val :: rest => do
      startTransaction callbacks stack addr 0xf7 beFn false true
      setupForWrite (val.setWidth 64) beFn false
      let rc ← waitForDevsel
      if rc < 0 then
        return rc
      else
        pciNextPosedgeUntilTrdy
        let remain ← writeBurstRest beLn rest
        releaseBus
        return (words.length : Int) - remain

/-- One attempt of `simbus_pci_read64`; an early return skips the release. -/
def read64Attempt
    (callbacks : Callbacks User Handle)
    (stack : Nat)
    (addr : BitVec 64)
    (ben : BitVec 32) :
    Call User Handle (Unit ⊕ Except (BitVec 64) (BitVec 64)) := do
  startTransaction callbacks stack addr 0xf6 ben true false
  drive fun out => releaseAd (driveBe (ben.setWidth 8) out)
  if (← waitForDevsel) < 0 then
    return .inr (.error 0xffffffffffff)
  else
    match ← waitForRead with
    | .error _ =>
        releaseBus
        return .inl ()
    | .ok word =>
        if (← Program.getState).out.frameN ≠ .zero then
          return .inr (.ok word.val)
        else
          -- A burst of two 32-bit words.
          drive fun out => { out with frameN := .one, req64N := .one }
          pciNextPosedge
          match ← waitForRead with
          | .error _ => Program.abort
          | .ok high => return .inr (.ok (word.val ||| (high.val <<< 32)))

/-- `simbus_pci_read64`. -/
def simbusPciRead64
    (callbacks : Callbacks User Handle)
    (stack : Nat)
    (addr : BitVec 64)
    (ben : BitVec 32) : Call User Handle (BitVec 64) := do
  match ←
    Program.loop (fun _ => read64Attempt callbacks stack addr ben) () with
  | .error val => return val
  | .ok val =>
      releaseBus
      return val

/-- `simbus_pci_write64`. -/
def simbusPciWrite64
    (callbacks : Callbacks User Handle)
    (stack : Nat)
    (addr val : BitVec 64)
    (ben : BitVec 32) : Call User Handle Unit := do
  startTransaction callbacks stack addr 0xf7 ben true false
  setupForWrite val ben true
  if (← waitForDevsel) < 0 then
    return ()
  else
    pciNextPosedgeUntilTrdy
    if (← Program.getState).out.frameN = .one then
      releaseBus
    else
      drive fun out => { out with frameN := .one, req64N := .one }
      setupForWrite (val >>> 32) (ben.sshiftRight 4) false
      pciNextPosedgeUntilTrdy
      releaseBus

/-- The loop of `simbus_pci_write64b`. -/
def write64bFrom
    (callbacks : Callbacks User Handle)
    (stack : Nat)
    (beFn beLn : BitVec 32) :
    Bool → BitVec 64 → List (BitVec 64) → Call User Handle Unit
  | _, _, [] => return ()
  | first, addr, val :: rest => do
      let ben :=
        if first then beFn
        else if rest = [] then beLn
        else 0
      simbusPciWrite64 callbacks stack addr val ben
      write64bFrom callbacks stack beFn beLn false (addr + 4) rest

/-- `simbus_pci_write64b`. -/
def simbusPciWrite64b
    (callbacks : Callbacks User Handle)
    (stack : Nat)
    (addr : BitVec 64)
    (words : List (BitVec 64))
    (beFn beLn : BitVec 32) : Call User Handle Int := do
  Program.assert fun _ => words ≠ []
  Program.assert fun _ => 1 < words.length ∨ beFn = beLn
  write64bFrom callbacks stack beFn beLn true addr words
  return words.length

/-- `SIMBUS_PCI_DFN`. -/
def simbusPciDfn (dev fn : Nat) : BitVec 8 :=
  BitVec.ofNat 8 ((dev * 8 &&& 0xf8) ||| (fn &&& 0x07))

/-- `make_type0_addr`. -/
def makeType0Addr (dfn : BitVec 8) (dwAddr : BitVec 16) : BitVec 64 :=
  (dwAddr.setWidth 64 &&& 0xfc) ||| (dfn.setWidth 64 <<< 8) |||
    (0x10000#64 <<< (dfn.toNat / 8))

/-- `simbus_pci_config_read`. -/
def simbusPciConfigRead
    (callbacks : Callbacks User Handle)
    (stack : Nat)
    (dfn : BitVec 8)
    (dwAddr : BitVec 16) : Call User Handle (BitVec 32) := do
  let (rc, val, _) ←
    genericPciRead32 callbacks stack (makeType0Addr dfn dwAddr) 0xfa 0xf0 0
  return if rc < 0 then 0xffffffff else val

/-- `simbus_pci_config_write`. -/
def simbusPciConfigWrite
    (callbacks : Callbacks User Handle)
    (stack : Nat)
    (dfn : BitVec 8)
    (dwAddr : BitVec 16)
    (val ben : BitVec 32) : Call User Handle Unit := do
  let _ ←
    genericPciWrite32 callbacks stack (makeType0Addr dfn dwAddr) 0xfb val ben

end

end Simbus.Pci
