import Simbus.Pci.Client

/-!
# The target machine of the libsimbus PCI client

`simbus_pci_target.c`.  The machine runs on the rising edges that
`simbus_pci_wait` passes.  The split completion makes the target a master for
one transaction, so the machine takes the function that requests the bus as an
argument.
-/

namespace Simbus.Pci

open FourValued Clocked

section

variable {User Handle : Type}

/-- `SIMBUS_XLATE_FLAG64`. -/
def xlateFlag64 : BitVec 32 := 0x0001

/-- `SIMBUS_XLATE_SPLIT_COMPLETIONS`. -/
def xlateSplitCompletions : BitVec 32 := 0x0002

/-- `SIMBUS_XLATE_RANDOM_RETRY_WRITE`. -/
def xlateRandomRetryWrite : BitVec 32 := 0x0004

/-- `SIMBUS_XLATE_RANDOM_RETRY_READ`. -/
def xlateRandomRetryRead : BitVec 32 := 0x0008

/-! ## Sampling the bus -/

/-- The command on the low lanes of C/BE#. -/
def commandOn (seen : BiSignals) : BitVec 4 :=
  sampleWord fun lane => seen.cBe (lowLane lane)

/-- `get_command`. -/
def getCommand (pci : SimbusPci User Handle) : BitVec 4 :=
  commandOn pci.seen

/-- `get_c_be` for the low four or for all eight lanes. -/
def getCBe (pci : SimbusPci User Handle) (bytes : Nat) : BitVec 32 :=
  (sampleWord fun lane : Fin 8 =>
    if lane.val < bytes then pci.seen.cBe lane else .zero).setWidth 32

/-- The low AD lines as a word; also `get_xattr`. -/
def getLowWord (pci : SimbusPci User Handle) : BitVec 32 :=
  sampleWord fun line => pci.seen.ad (lowLine line)

/-- `get_addr32`. -/
def getAddr32 (pci : SimbusPci User Handle) : BitVec 64 :=
  (getLowWord pci).setWidth 64

/-- `get_data64`. -/
def getData64 (pci : SimbusPci User Handle) : BitVec 64 :=
  sampleWord pci.seen.ad

/-- `get_addr`: after a DAC the lines carry the high half. -/
def getAddr (pci : SimbusPci User Handle) : BitVec 64 :=
  if pci.targetState ≠ .dac then
    getAddr32 pci
  else
    (getAddr32 pci <<< 32) + pci.dacAddrLo

/-- `get_idsel`, for an identifier below 16. -/
def getIdsel (pci : SimbusPci User Handle) : Bool :=
  if bounded : pci.ident < 16 then
    pci.seen.ad ⟨16 + pci.ident, by omega⟩ = .one
  else
    false

/-- A region that claims an address. -/
def SimbusTranslation.claims
    (region : SimbusTranslation Handle)
    (addr : BitVec 64) : Prop :=
  region.mask ≠ 0 ∧ region.mask &&& region.base = region.mask &&& addr

instance
    (region : SimbusTranslation Handle)
    (addr : BitVec 64) :
    Decidable (region.claims addr) :=
  inferInstanceAs (Decidable (_ ∧ _))

/-- `match_mem_target`. -/
def matchMemTarget (pci : SimbusPci User Handle) : Option (Fin 8) :=
  (List.finRange 8).find? fun idx =>
    (pci.device.memTarget idx).claims (getAddr pci)

/-- The region a bar pointer points to. -/
def barOf
    (pci : SimbusPci User Handle)
    (bar : Fin 8) : SimbusTranslation Handle :=
  pci.device.memTarget bar

/-- `pci64_mode`. -/
def pci64Mode (pci : SimbusPci User Handle) (bar : Fin 8) : Bool :=
  (barOf pci bar).flags &&& xlateFlag64 ≠ 0 ∧ pci.seen.req64N = .zero

/-- `pcix_split_completion_mode`. -/
def pcixSplitCompletionMode
    (pci : SimbusPci User Handle)
    (bar : Fin 8) : Bool :=
  pcixMode pci ∧ (barOf pci bar).flags &&& xlateSplitCompletions ≠ 0

/-! ## Callbacks -/

/-- Call a `need32` callback. -/
def callNeed32
    (callbacks : Callbacks User Handle)
    (handle : Handle)
    (addr : BitVec 64)
    (ben : BitVec 32) : Call User Handle (BitVec 32) := do
  let pci ← Program.getState
  let (val, device) := callbacks.need32 handle addr ben pci.device
  Program.modifyState fun pci => { pci with device := device }
  return val

/-- Call a `recv32` callback. -/
def callRecv32
    (callbacks : Callbacks User Handle)
    (handle : Handle)
    (addr : BitVec 64)
    (val ben : BitVec 32) : Call User Handle Unit :=
  Program.modifyState fun pci =>
    { pci with
      device := callbacks.recv32 handle addr val ben pci.device }

/-- Call a `need32` callback, or take a default where it is null. -/
def callNeed32OrElse
    (callbacks : Callbacks User Handle)
    (need32 : Option Handle)
    (addr : BitVec 64)
    (ben otherwise : BitVec 32) : Call User Handle (BitVec 32) :=
  match need32 with
  | some handle => callNeed32 callbacks handle addr ben
  | none => pure otherwise

/-- Call a `need32` callback that must not be null. -/
def callNeed32OrFail
    (callbacks : Callbacks User Handle)
    (need32 : Option Handle)
    (addr : BitVec 64)
    (ben : BitVec 32) : Call User Handle (BitVec 32) :=
  match need32 with
  | some handle => callNeed32 callbacks handle addr ben
  | none => Program.abort

/-- Call a `recv32` callback unless it is null. -/
def callRecv32IfAny
    (callbacks : Callbacks User Handle)
    (recv32 : Option Handle)
    (addr : BitVec 64)
    (val ben : BitVec 32) : Call User Handle Unit :=
  match recv32 with
  | some handle => callRecv32 callbacks handle addr val ben
  | none => pure ()

/-! ## Driving the bus -/

/-- Drive the low AD lines with a word and release the high ones. -/
def driveLowAd (val : BitVec 32) (out : BiSignals) : BiSignals :=
  { out with
    ad := fun line =>
      if bounded : line.val < 32 then
        driveWord val ⟨line.val, bounded⟩
      else
        .z }

/-- Drive the low AD lines with a word and leave the high ones alone. -/
def driveAddress (val : BitVec 32) (out : BiSignals) : BiSignals :=
  { out with
    ad := fun line =>
      if bounded : line.val < 32 then
        driveWord val ⟨line.val, bounded⟩
      else
        out.ad line }

/-- Drive all AD lines with two words. -/
def driveAd64 (low high : BitVec 32) (out : BiSignals) : BiSignals :=
  { out with ad := driveWord (high ++ low) }

/-- Release the AD lines. -/
def releaseAd (out : BiSignals) : BiSignals :=
  { out with ad := fun _ => .z }

/-- Drive the low lanes of C/BE# and leave the high ones alone. -/
def driveLowBe (val : BitVec 4) (out : BiSignals) : BiSignals :=
  { out with
    cBe := fun lane =>
      if bounded : lane.val < 4 then
        driveWord val ⟨lane.val, bounded⟩
      else
        out.cBe lane }

/-- Drive all lanes of C/BE#. -/
def driveBe (val : BitVec 8) (out : BiSignals) : BiSignals :=
  { out with cBe := driveWord val }

/-- `if (pcix_mode(pci)) __pci_next_posedge(pci)`. -/
def pcixNextPosedge : Call User Handle Unit := do
  if pcixMode (← Program.getState) then
    pciNextPosedge
  else
    pure ()

def setTargetState (state : TargetState) : Call User Handle Unit :=
  Program.modifyState fun pci => { pci with targetState := state }

/-! ## Configuration cycles -/

/-- `do_target_DAC`. -/
def doTargetDAC : Call User Handle Unit :=
  Program.modifyState fun pci =>
    { pci with
      dacAddrLo := getAddr32 pci
      targetState := .dac }

/-- `do_target_config_read`. -/
def doTargetConfigRead
    (callbacks : Callbacks User Handle) : Call User Handle Unit := do
  let pci ← Program.getState
  let addr := getAddr32 pci &&& 0x0000ffff
  let val ←
    callNeed32OrElse callbacks pci.device.configNeed32 addr 0 0xffffffff
  -- A turnaround cycle for the AD bus.
  drive fun out =>
    { out with devselN := .zero, trdyN := .one, stopN := .one }
  pciNextPosedge
  drive fun out => driveLowAd val { out with trdyN := .zero }
  pciNextPosedgeUntilIrdy
  drive fun out =>
    releaseAd { out with devselN := .one, trdyN := .one, stopN := .one }
  pciNextPosedge
  undriveBus
  setTargetState .idle

/-- `do_target_config_write`. -/
def doTargetConfigWrite
    (callbacks : Callbacks User Handle) : Call User Handle Unit := do
  Program.assert fun pci => pci.pciClk = .one
  let pci ← Program.getState
  let addr := getAddr32 pci &&& 0x0000ffff
  drive fun out =>
    { out with devselN := .zero, trdyN := .zero, stopN := .one }
  pciNextPosedgeUntilIrdy
  let pci ← Program.getState
  let val := getLowWord pci
  let ben := getCBe pci 4
  callRecv32IfAny callbacks pci.device.configRecv32 addr val ben
  drive fun out =>
    { out with devselN := .one, trdyN := .one, stopN := .one }
  pciNextPosedge
  drive fun out => { out with devselN := .z, trdyN := .z, stopN := .z }
  setTargetState .idle

/-! ## Retries -/

/-- `do_target_memory_rw_retry`. -/
def doTargetMemoryRwRetry : Call User Handle Unit := do
  pcixNextPosedge
  drive fun out =>
    { out with devselN := .zero, ack64N := .one, stopN := .one }
  pcixNextPosedge
  drive fun out => { out with trdyN := .one, stopN := .zero }
  pciNextPosedge
  drive fun out => { out with trdyN := .one, stopN := .one }
  pciNextPosedge
  drive fun out =>
    { out with devselN := .z, ack64N := .z, trdyN := .z, stopN := .z }
  -- A turnaround cycle.
  pciNextPosedge
  setTargetState .idle

/-- `choose_to_retry_w` and `choose_to_retry_r`, by the flag they look at. -/
def chooseToRetry
    (flag : BitVec 32)
    (bar : Fin 8) : Call User Handle Bool := do
  let pci ← Program.getState
  if (barOf pci bar).flags &&& flag = 0 then
    return false
  else if pci.device.retryRate ≤ 0 then
    return false
  else
    let val ← genrand
    return val.tmod pci.device.retryRate = 0

/-- `choose_to_retry_w`. -/
def chooseToRetryW (bar : Fin 8) : Call User Handle Bool :=
  chooseToRetry xlateRandomRetryWrite bar

/-- `choose_to_retry_r`. -/
def chooseToRetryR (bar : Fin 8) : Call User Handle Bool :=
  chooseToRetry xlateRandomRetryRead bar

/-! ## Memory reads -/

/-- Repeat `__pci_next_posedge` a number of times. -/
def pciNextPosedges : Nat → Call User Handle Unit
  | 0 => pure ()
  | count + 1 => do
      pciNextPosedge
      pciNextPosedges count

/-- The data words of a split completion. -/
def splitCompletionWords
    (callbacks : Callbacks User Handle)
    (bar : Fin 8) : Nat → BitVec 64 → Call User Handle Unit
  | 0, _ => pure ()
  | wordCount + 1, useAddr => do
      drive fun out => { out with irdyN := .zero }
      let pci ← Program.getState
      -- Without a callback the source would drive an uninitialised word.
      let val ←
        callNeed32OrFail callbacks (barOf pci bar).need32 useAddr 0
      drive (driveAddress val)
      pciNextPosedge
      splitCompletionWords callbacks bar wordCount (useAddr + 4)

/-- The byte count of an attribute phase. -/
def attributeByteCount (pci : SimbusPci User Handle) : Nat :=
  (getCommand pci).toNat * 256 + ((getLowWord pci) &&& 0xff).toNat

/-- Requester and address fields of a split completion. -/
def splitCompletionAddress
    (addr : BitVec 64)
    (attr : BitVec 32) : BitVec 32 :=
  (addr.setWidth 32 &&& 0x7f) ||| (attr &&& 0x1fffff00)

/-- Lower byte count and completer fields of a split completion. -/
def splitCompletionAttribute
    (ident byteCount : Nat) : BitVec 32 :=
  (BitVec.ofNat 32 byteCount &&& 0xff) |||
    ((BitVec.ofNat 32 ident &&& 0x1f) <<< 11)

/-- Upper byte count; the last lane tests two bits. -/
def splitCompletionUpperCount (byteCount : Nat) : BitVec 4 :=
  BitVec.ofBool (BitVec.ofNat 32 byteCount &&& 0x600 ≠ 0) ++
    BitVec.ofBool (BitVec.ofNat 32 byteCount &&& 0x400 ≠ 0) ++
    BitVec.ofBool (BitVec.ofNat 32 byteCount &&& 0x200 ≠ 0) ++
    BitVec.ofBool (BitVec.ofNat 32 byteCount &&& 0x100 ≠ 0)

/-- `do_target_memory_read_split`. -/
def doTargetMemoryReadSplit
    (callbacks : Callbacks User Handle)
    (requestBus : Call User Handle Unit)
    (bar : Fin 8)
    (addr : BitVec 64)
    (attr : BitVec 32)
    (byteCount : Nat) : Call User Handle Unit := do
  drive fun out =>
    { out with
      devselN := .zero, ack64N := .one, trdyN := .one, stopN := .one }
  pciNextPosedge
  -- The split response.
  drive fun out =>
    { out with
      devselN := .one, trdyN := .zero, stopN := .one, ad := fun _ => .one }
  pciNextPosedge
  drive fun out =>
    releaseAd
      { out with
        devselN := .one, ack64N := .one, trdyN := .one, stopN := .one }
  pciNextPosedge
  undriveBus
  setTargetState .idle
  -- `SPLIT_COMPLETION_DELAY`
  pciNextPosedges 10
  -- The split completion, as a master.
  requestBus
  drive fun out => { out with frameN := .zero, req64N := .one }
  drive (driveAddress (splitCompletionAddress addr attr))
  drive (driveBe 0xcc)
  pciNextPosedge
  let pci ← Program.getState
  drive (driveAddress (splitCompletionAttribute pci.ident byteCount))
  drive (driveBe (0xf#4 ++ splitCompletionUpperCount byteCount))
  pciNextPosedge
  drive (driveLowBe 0xf)
  Program.whileDo (fun pci => pci.seen.devselN ≠ .zero) pciNextPosedge
  let wordCount := (addr.toNat % 4 + byteCount + 3) / 4
  splitCompletionWords callbacks bar wordCount (addr &&& ~~~3)
  pciNextPosedges (if wordCount = 1 then 1 else 0)
  drive fun out => { out with frameN := .one, irdyN := .one }
  pciNextPosedge
  undriveBus
  setTargetState .idle
  pciNextPosedge

/-- Size and number of the words of a PCI-X burst. -/
def pcixWords
    (pci : SimbusPci User Handle)
    (bar : Fin 8)
    (addr : BitVec 64)
    (byteCount : Nat) : Nat × Nat :=
  if pci64Mode pci bar ∧ addr.toNat % 4 + byteCount > 4 then
    (8, (addr.toNat % 8 + byteCount + 7) / 8)
  else
    (4, (addr.toNat % 4 + byteCount + 3) / 4)

/-- The locals of the burst loop of a read. -/
structure ReadBurst where
  addr : BitVec 64
  burstLen : Nat
  valL : BitVec 32
  valH : BitVec 32

/-- The words for one data phase of a read. -/
def needBurstWords
    (callbacks : Callbacks User Handle)
    (bar : Fin 8)
    (wordSize : Nat)
    (burst : ReadBurst) : Call User Handle (BitVec 32 × BitVec 32) := do
  let pci ← Program.getState
  -- In PCI-X mode C/BE# carries no byte enables.
  let benL := if pcixMode pci then 0 else getCBe pci 4
  let valL ←
    callNeed32OrElse callbacks (barOf pci bar).need32
      (burst.addr &&& ~~~3) benL burst.valL
  if wordSize = 8 ∧ (barOf pci bar).need32.isSome then
    let next ← Program.getState
    let valH ←
      callNeed32OrFail callbacks (barOf next bar).need32
        ((burst.addr + 4) &&& ~~~3) 0
    return (valL, valH)
  else
    return (valL, burst.valH)

/-- One word of a read burst. -/
def readBurstWord
    (callbacks : Callbacks User Handle)
    (bar : Fin 8)
    (wordSize wordCount : Nat)
    (burst : ReadBurst) : Call User Handle (ReadBurst ⊕ Nat) := do
  let (valL, valH) ← needBurstWords callbacks bar wordSize burst
  drive fun out => { out with trdyN := .zero }
  drive (if wordSize = 8 then driveAd64 valL valH else driveLowAd valL)
  pciNextPosedgeUntilIrdy
  -- Driving a word shifts it out, so a null callback repeats zeros.
  let next : ReadBurst :=
    { addr := burst.addr + BitVec.ofNat 64 wordSize
      burstLen := burst.burstLen + 1
      valL := 0
      valH := if wordSize = 8 then 0 else valH }
  let pci ← Program.getState
  if pcixMode pci ∧ next.burstLen = wordCount then
    return .inr next.burstLen
  else if pci.seen.frameN = .zero then
    return .inl next
  else
    return .inr next.burstLen

/-- The data phases of a read. -/
def readData
    (callbacks : Callbacks User Handle)
    (bar : Fin 8)
    (addr : BitVec 64)
    (wordSize wordCount : Nat) : Call User Handle Unit := do
  drive fun out =>
    { out with
      devselN := .zero
      ack64N := if wordSize = 8 then .zero else .one
      stopN := .one }
  pcixNextPosedge
  drive fun out => { out with trdyN := .one }
  pciNextPosedge
  let _ ←
    Program.loop (readBurstWord callbacks bar wordSize wordCount)
      { addr := addr, burstLen := 0, valL := 0xffffffff, valH := 0xffffffff }
  drive fun out =>
    releaseAd
      { out with
        devselN := .one, ack64N := .one, trdyN := .one, stopN := .one }
  pciNextPosedge
  undriveBus
  setTargetState .idle

/-- `do_target_memory_read`. -/
def doTargetMemoryRead
    (callbacks : Callbacks User Handle)
    (requestBus : Call User Handle Unit)
    (bar : Fin 8) : Call User Handle Unit := do
  let addr := getAddr (← Program.getState)
  if ← chooseToRetryR bar then
    doTargetMemoryRwRetry
  else if pcixMode (← Program.getState) then
    pciNextPosedge
    let pci ← Program.getState
    let byteCount := attributeByteCount pci
    if pcixSplitCompletionMode pci bar then
      doTargetMemoryReadSplit callbacks requestBus bar addr (getLowWord pci)
        byteCount
    else
      let (wordSize, wordCount) := pcixWords pci bar addr byteCount
      readData callbacks bar addr wordSize wordCount
  else
    readData callbacks bar addr 4 0

/-! ## Memory writes -/

/-- `make_ben4x`: byte enables of the first and the last word. -/
def makeBen4x
    (addr : BitVec 64)
    (byteCount : Nat) : BitVec 32 × BitVec 32 :=
  let firstBen : BitVec 32 :=
    match addr.toNat % 4, byteCount with
    | 0, 1 => 0xe
    | 0, 2 => 0xc
    | 0, 3 => 0x8
    | 0, _ => 0x0
    | 1, 1 => 0xd
    | 1, 2 => 0x9
    | 1, _ => 0x1
    | 2, 1 => 0xb
    | 2, _ => 0x3
    | _, _ => 0x7
  let lastBen : BitVec 32 :=
    match (addr.toNat % 4 + byteCount) % 4 with
    | 0 => 0x0
    | 1 => 0xe
    | 2 => 0xc
    | _ => 0x8
  (firstBen ||| 0xf0, lastBen ||| 0xf0)

/-- `make_ben8x`. -/
def makeBen8x
    (addr : BitVec 64)
    (byteCount : Nat) : BitVec 32 × BitVec 32 :=
  let ben1 : BitVec 32 :=
    0xff &&& ~~~(BitVec.allOnes 32 <<< (addr.toNat % 8))
  let shifted : BitVec 32 :=
    0xff &&& (BitVec.allOnes 32 <<< ((addr.toNat + byteCount) % 8))
  let ben2 : BitVec 32 := if shifted = 0xff then 0 else shifted
  if addr.toNat % 8 + byteCount < 8 then
    (ben1 ||| ben2, ben2)
  else
    (ben1, ben2)

/-- The parameters of a write burst. -/
structure WriteBurst where
  wordSize : Nat
  wordCount : Nat
  firstBen : BitVec 32
  lastBen : BitVec 32

/-- Hand one sampled data phase to the callback. -/
def writeBurstReceive
    (callbacks : Callbacks User Handle)
    (bar : Fin 8)
    (burst : WriteBurst)
    (addr : BitVec 64)
    (burstLen : Nat) : Call User Handle Unit := do
  let pci ← Program.getState
  match (barOf pci bar).recv32 with
  | none => pure ()
  | some handle =>
      let pcixBen :=
        if burstLen = 0 then burst.firstBen
        else if burstLen + 1 = burst.wordCount then burst.lastBen
        else 0
      let ben :=
        if pcixMode pci then pcixBen else getCBe pci burst.wordSize
      if burst.wordSize = 4 then
        callRecv32 callbacks handle (addr &&& ~~~3) (getLowWord pci) ben
      else
        let val := getData64 pci
        callRecv32 callbacks handle (addr &&& ~~~7) (val.setWidth 32)
          (ben &&& 15)
        let next ← Program.getState
        match (barOf next bar).recv32 with
        | none => Program.abort
        | some handle =>
            callRecv32 callbacks handle ((addr &&& ~~~7) + 4)
              ((val >>> 32).setWidth 32) ((ben >>> 4) &&& 15)

/-- One word of a write burst. -/
def writeBurstWord
    (callbacks : Callbacks User Handle)
    (bar : Fin 8)
    (burst : WriteBurst)
    (current : BitVec 64 × Nat) :
    Call User Handle ((BitVec 64 × Nat) ⊕ Nat) := do
  let (addr, burstLen) := current
  pciNextPosedgeUntilIrdy
  writeBurstReceive callbacks bar burst addr burstLen
  let addr := addr + BitVec.ofNat 64 burst.wordSize
  let burstLen := burstLen + 1
  let pci ← Program.getState
  if pcixMode pci ∧ burstLen = burst.wordCount then
    return .inr burstLen
  else if pci.seen.frameN = .zero ∨
      (pcixMode pci ∧ burstLen + 1 = burst.wordCount) ∨
      (pcixMode pci ∧ burstLen + 2 = burst.wordCount) then
    return .inl (addr, burstLen)
  else
    return .inr burstLen

/-- The data phases of a write. -/
def writeData
    (callbacks : Callbacks User Handle)
    (bar : Fin 8)
    (addr : BitVec 64)
    (burst : WriteBurst) : Call User Handle Unit := do
  drive fun out =>
    { out with
      devselN := .zero
      ack64N := if burst.wordSize = 8 then .zero else .one
      stopN := .one }
  pcixNextPosedge
  drive fun out => { out with trdyN := .zero }
  let _ ← Program.loop (writeBurstWord callbacks bar burst) (addr, 0)
  drive fun out =>
    { out with devselN := .z, ack64N := .z, trdyN := .z, stopN := .z }
  -- A turnaround cycle.
  pciNextPosedge
  setTargetState .idle

/-- `do_target_memory_write`. -/
def doTargetMemoryWrite
    (callbacks : Callbacks User Handle)
    (bar : Fin 8) : Call User Handle Unit := do
  let addr := getAddr (← Program.getState)
  if ← chooseToRetryW bar then
    doTargetMemoryRwRetry
  else if pcixMode (← Program.getState) then
    pciNextPosedge
    let pci ← Program.getState
    let byteCount := attributeByteCount pci
    let (wordSize, wordCount) := pcixWords pci bar addr byteCount
    let (firstBen, lastBen) :=
      if wordSize = 8 then
        makeBen8x addr byteCount
      else
        makeBen4x addr byteCount
    -- DEVSEL# may come in slot A, B or C.
    let val ← genrand
    pciNextPosedges (val.tmod 3).toNat
    writeData callbacks bar addr
      { wordSize := wordSize
        wordCount := wordCount
        firstBen := firstBen
        lastBen := lastBen }
  else
    writeData callbacks bar addr
      { wordSize := 4, wordCount := 0, firstBen := 0, lastBen := 0 }

/-! ## The machine -/

/-- What the machine does with a sample. -/
inductive TargetAction where
  | stay
  | memoryRead (bar : Fin 8)
  | memoryWrite (bar : Fin 8)
  | configRead
  | configWrite
  | dualAddress
  | skip
  | release
  deriving DecidableEq

/-- A memory command for one of the regions, in either decoding state. -/
def memoryAction
    (pci : SimbusPci User Handle) : Option TargetAction :=
  match matchMemTarget pci with
  | none => none
  | some bar =>
      if getCommand pci = 0x6 then
        some (.memoryRead bar)
      else if getCommand pci = 0x7 then
        some (.memoryWrite bar)
      else if getCommand pci = 0xc then
        some (.memoryRead bar)
      else if getCommand pci = 0xe then
        some (.memoryRead bar)
      else if pcixMode pci ∧ getCommand pci = 0xf then
        some (.memoryWrite bar)
      else
        none

/-- The cases of `__pci_target_state_machine`. -/
def targetAction (pci : SimbusPci User Handle) : TargetAction :=
  match pci.targetState with
  | .idle =>
      if pci.seen.frameN = .zero then
        match memoryAction pci with
        | some action => action
        | none =>
            if getIdsel pci ∧ getCommand pci = 0xa then
              .configRead
            else if getIdsel pci ∧ getCommand pci = 0xb then
              .configWrite
            else if getCommand pci = 0xd then
              .dualAddress
            else
              .skip
      else
        .stay
  | .dac =>
      if pci.seen.frameN = .zero then
        match memoryAction pci with
        | some action => action
        | none => .skip
      else
        -- FRAME# went away after the DAC.
        .release
  | .busBusy =>
      if pci.seen.frameN = .one then
        .release
      else
        .stay

/-- `__pci_target_state_machine`. -/
def pciTargetStateMachine
    (callbacks : Callbacks User Handle)
    (requestBus : Call User Handle Unit) : Call User Handle Unit := do
  -- `get_idsel` is called whenever an idle machine sees a command.
  Program.assert fun pci =>
    pci.targetState ≠ .idle ∨ pci.seen.frameN ≠ .zero ∨ pci.ident < 16
  match targetAction (← Program.getState) with
  | .stay => pure ()
  | .memoryRead bar => doTargetMemoryRead callbacks requestBus bar
  | .memoryWrite bar => doTargetMemoryWrite callbacks bar
  | .configRead => doTargetConfigRead callbacks
  | .configWrite => doTargetConfigWrite callbacks
  | .dualAddress => doTargetDAC
  | .skip => setTargetState .busBusy
  | .release => setTargetState .idle

/-- `simbus_pci_mem_xlate`. -/
def simbusPciMemXlate
    (idx : Nat)
    (drv : Option (SimbusTranslation Handle)) : Call User Handle Unit :=
  Program.modifyState fun pci =>
    { pci with
      device :=
        { pci.device with
          memTarget := fun region =>
            if region.val = idx then
              drv.getD .unused
            else
              pci.device.memTarget region } }

end

end Simbus.Pci
