import Simbus.Axi4.Client

/-!
# The AXI4 master of libsimbus

Waiting, reset, and the writes and reads of one word.
-/

namespace Simbus.Axi4

open FourValued Clocked

section

variable {User : Type}

/-! ## The clock -/

/-- Wait for a value of the clock. -/
def awaitLevel (level : Logic4) : MasterCall User Unit :=
  Program.whileDo (fun bus => bus.aclk ≠ level) do
    let _ ← axi4ReadyCommand

/-- `__axi4_next_posedge`. -/
def axi4NextPosedge : MasterCall User Unit := do
  awaitLevel .zero
  awaitLevel .one

/-- `__axi4_test_interrupts`. -/
def testInterrupts
    (irqMask : Option (BitVec 32))
    (bus : SimbusAxi4 User) : BitVec 32 :=
  match irqMask with
  | none => 0
  | some mask =>
      (List.range bus.widths.irqWidth).foldl
        (fun rc idx =>
          if bus.irq idx = .one then rc else rc &&& ~~~ ((1 : BitVec 32) <<< idx))
        mask

/-- One turn of the loop of `simbus_axi4_wait`. -/
def waitTurn
    (irqMask : Option (BitVec 32)) :
    Nat → MasterCall User (Nat ⊕ (Int × Option (BitVec 32)))
  | 0 => return .inr (0, irqMask.map fun _ => 0)
  | clks + 1 => do
      axi4NextPosedge
      let bus ← Program.getState
      let irqTest := testInterrupts irqMask bus
      if irqTest ≠ 0 then
        return .inr (1, some irqTest)
      else
        return .inl clks

/--
`simbus_axi4_wait`: its result, and what it leaves in the mask.  Without a
clock to wait for the loop makes no turn.
-/
def simbusAxi4Wait
    (clks : Nat)
    (irqMask : Option (BitVec 32)) :
    MasterCall User (Int × Option (BitVec 32)) := do
  let bus ← Program.getState
  let irqTest := testInterrupts irqMask bus
  if irqTest ≠ 0 then
    return (1, some irqTest)
  else
    Program.loop (waitTurn irqMask) clks

/-- Drive ARESETn. -/
def driveReset (level : Logic4) : MasterCall User Unit :=
  Program.modifyState fun bus => { bus with aresetN := level }

/-- `simbus_axi4_reset`. -/
def simbusAxi4Reset (width settle : Nat) : MasterCall User Unit := do
  Program.assert fun _ => decide (0 < width)
  Program.assert fun _ => decide (0 < settle)
  driveReset .zero
  let _ ← simbusAxi4Wait width none
  driveReset .one
  let _ ← simbusAxi4Wait settle none

/-! ## Address channels -/

/-- `waddr_setup` and the like part of `raddr_setup`. -/
def AddressChannel.setup
    (channel : AddressChannel)
    (addrWidth : Nat)
    (addr : BitVec 64)
    (size : Nat)
    (prot : BitVec 32) : AddressChannel where
  valid := .one
  addr := fun idx =>
    if idx < addrWidth then bitsOf addr idx else channel.addr idx
  len := fun _ => .zero
  size := bitsOf (BitVec.ofNat 3 size)
  burst := bitsOf (1 : BitVec 2)
  lock := fun _ => .zero
  cache := fun _ => .zero
  prot := bitsOf prot
  qos := fun _ => .zero
  id := fun _ => .zero

/-- `data_pref`: the byte of a bus word that an address names. -/
def dataPref (widths : Widths) (addr : BitVec 64) : Nat :=
  addr.toNat % (widths.dataWidth / 8)

/-- The response code in two values, of which everything but 1 counts as 0. -/
def extractResp (bits : Bits) : Resp :=
  if bits 0 = .one then
    if bits 1 = .one then .decerr else .exokay
  else
    if bits 1 = .one then .slverr else .okay

/-! ## Writes -/

/--
The values from `wdata` on after the loops that put a word there, the last of
which starts `clearFrom` behind the first bit of the word.
-/
def placeWord
    {width : Nat}
    (dataWidth : Nat)
    (clearFrom : Nat)
    (pref : Nat)
    (data : BitVec width)
    (bits : Bits) : Bits := fun idx =>
  if pref * 8 + clearFrom ≤ idx ∧ idx < dataWidth then
    .x
  else if pref * 8 ≤ idx ∧ idx < pref * 8 + width then
    bitsOf data (idx - pref * 8)
  else if idx < pref * 8 then
    .x
  else
    bits idx

/-- The signals of a write.  A word may reach over the end of `wdata`. -/
def SimbusAxi4.driveWrite
    {width : Nat}
    (bus : SimbusAxi4 User)
    (clearFrom size : Nat)
    (addr : BitVec 64)
    (prot : BitVec 32)
    (data : BitVec width) : SimbusAxi4 User :=
  let pref := dataPref bus.widths addr
  let placed := placeWord bus.widths.dataWidth clearFrom pref data bus.fromWdata
  { bus with
    aw := bus.aw.setup bus.widths.addrWidth addr size prot
    wvalid := .one
    wdata := placed
    wstrb := fun idx =>
      if idx < bus.widths.dataWidth / 8 then
        Logic4.ofBool (pref ≤ idx ∧ idx < pref + width / 8)
      else
        placed (idx + 64)
    bready := .one
    ar :=
      { bus.ar with
        valid := placed 73
        addr := fun idx => placed (idx + 74) } }

/-- What a master does about the address and the data after a clock edge. -/
def SimbusAxi4.endWriteBeats (bus : SimbusAxi4 User) : SimbusAxi4 User :=
  let bus :=
    if bus.aw.valid = .one ∧ bus.awready = .one then
      { bus with aw := .unused }
    else
      bus
  if bus.wvalid = .one ∧ bus.wready = .one then
    { bus with wvalid := .zero, wdata := fun _ => .x, wstrb := fun _ => .x }
  else
    bus

/-- `AXI4_RESP_TIMELIMIT`. -/
def axi4RespTimelimit : Int :=
  1024

/--
One turn of the loop of `wait_for_resp`, with `resp_code` and
`response_timer`.  When the time is over, BREADY stays as it is.
-/
def waitForRespTurn :
    Resp × Int → MasterCall User ((Resp × Int) ⊕ Resp)
  | (respCode, responseTimer) => do
      let bus ← Program.getState
      if bus.aw.valid = .one ∨ bus.wvalid = .one ∨ bus.bready = .one then do
        axi4NextPosedge
        Program.modifyState SimbusAxi4.endWriteBeats
        let bus ← Program.getState
        if bus.bready = .one ∧ bus.bvalid = .one then do
          Program.modifyState fun bus => { bus with bready := .zero }
          return .inl (extractResp bus.bresp, responseTimer)
        else if bus.bready = .one then
          if responseTimer - 1 < 0 then
            return .inl (.slverr, responseTimer - 1)
          else
            return .inl (respCode, responseTimer - 1)
        else
          return .inl (respCode, responseTimer)
      else
        return .inr respCode

/-- `wait_for_resp`. -/
def waitForResp : MasterCall User Resp :=
  Program.loop waitForRespTurn (.okay, axi4RespTimelimit)

/-- The part that the writes have in common. -/
def writeWord
    {width : Nat}
    (clearFrom size : Nat)
    (addr : BitVec 64)
    (prot : BitVec 32)
    (data : BitVec width) : MasterCall User Resp := do
  Program.assert fun bus => decide (bus.widths.addrWidth ≤ 64)
  Program.modifyState fun bus =>
    bus.driveWrite clearFrom size addr prot data
  waitForResp

/-- The assertions on the width of the bus and the address. -/
def assertFits (width : Nat) (addr : BitVec 64) : MasterCall User Unit := do
  Program.assert fun bus => decide (width ≤ bus.widths.dataWidth)
  Program.assert fun _ => decide (addr.toNat % (width / 8) = 0)

/-- The bytes of a bus word are counted: there must be one. -/
def assertBytes : MasterCall User Unit :=
  Program.assert fun bus => decide (bus.widths.dataWidth / 8 ≠ 0)

/-- `simbus_axi4_write64`, which clears the upper half of its word. -/
def simbusAxi4Write64
    (addr : BitVec 64)
    (prot : BitVec 32)
    (data : BitVec 64) : MasterCall User Resp := do
  assertFits 64 addr
  writeWord 32 3 addr prot data

/-- `simbus_axi4_write32`. -/
def simbusAxi4Write32
    (addr : BitVec 64)
    (prot : BitVec 32)
    (data : BitVec 32) : MasterCall User Resp := do
  assertFits 32 addr
  writeWord 32 2 addr prot data

/-- `simbus_axi4_write16`. -/
def simbusAxi4Write16
    (addr : BitVec 64)
    (prot : BitVec 32)
    (data : BitVec 16) : MasterCall User Resp := do
  assertFits 16 addr
  writeWord 16 1 addr prot data

/-- `simbus_axi4_write8`. -/
def simbusAxi4Write8
    (addr : BitVec 64)
    (prot : BitVec 32)
    (data : BitVec 8) : MasterCall User Resp := do
  assertBytes
  writeWord 8 0 addr prot data

/-! ## Reads -/

/-- The loop that takes the bits of a word, the lowest one first. -/
def takeWord (width : Nat) (bits : Bits) : BitVec width :=
  (List.range width).foldl
    (fun data idx =>
      data ||| if bits idx = .one then BitVec.twoPow width idx else 0)
    0

/-- The signals of a read. -/
def SimbusAxi4.driveRead
    (bus : SimbusAxi4 User)
    (size : Nat)
    (addr : BitVec 64)
    (prot : BitVec 32) : SimbusAxi4 User :=
  { bus with
    ar := bus.ar.setup bus.widths.addrWidth addr size prot
    rready := .one }

/-- `raddr_check`. -/
def SimbusAxi4.raddrCheck (bus : SimbusAxi4 User) : SimbusAxi4 User :=
  if bus.ar.valid = .one ∧ bus.arready = .one then
    { bus with ar := .unused }
  else
    bus

/-- One turn of the loop of a read, with `resp_code` and the data. -/
def readWordTurn
    (width : Nat)
    (pref : Nat) :
    Resp × BitVec width →
      MasterCall User ((Resp × BitVec width) ⊕ (Resp × BitVec width))
  | (respCode, data) => do
      let bus ← Program.getState
      if bus.ar.valid = .one ∨ bus.rready = .one then do
        axi4NextPosedge
        Program.modifyState SimbusAxi4.raddrCheck
        let bus ← Program.getState
        if bus.rready = .one ∧ bus.rvalid = .one then do
          Program.modifyState fun bus => { bus with rready := .zero }
          return .inl (extractResp bus.rresp,
            takeWord width fun idx => bus.fromRdata (pref * 8 + idx))
        else
          return .inl (respCode, data)
      else
        return .inr (respCode, data)

/--
The part that the reads have in common: the response and the data.  The data
that the caller had are not looked at.
-/
def readWord
    (width : Nat)
    (size : Nat)
    (addr : BitVec 64)
    (prot : BitVec 32) : MasterCall User (Resp × BitVec width) := do
  let bus ← Program.getState
  Program.modifyState fun bus => bus.driveRead size addr prot
  Program.loop (readWordTurn width (dataPref bus.widths addr)) (.okay, 0)

/-- The assertions of the reads of more than a byte. -/
def assertReads (width : Nat) (addr : BitVec 64) : MasterCall User Unit := do
  assertBytes
  Program.assert fun bus => decide (width ≤ bus.widths.dataWidth)
  Program.assert fun bus => decide (bus.widths.addrWidth ≤ 64)
  Program.assert fun _ => decide (addr.toNat % (width / 8) = 0)

/-- `simbus_axi4_read64`. -/
def simbusAxi4Read64
    (addr : BitVec 64)
    (prot : BitVec 32) : MasterCall User (Resp × BitVec 64) := do
  assertReads 64 addr
  readWord 64 3 addr prot

/-- `simbus_axi4_read32`. -/
def simbusAxi4Read32
    (addr : BitVec 64)
    (prot : BitVec 32) : MasterCall User (Resp × BitVec 32) := do
  assertReads 32 addr
  readWord 32 2 addr prot

/-- `simbus_axi4_read16`. -/
def simbusAxi4Read16
    (addr : BitVec 64)
    (prot : BitVec 32) : MasterCall User (Resp × BitVec 16) := do
  assertReads 16 addr
  readWord 16 1 addr prot

/-- `simbus_axi4_read8`. -/
def simbusAxi4Read8
    (addr : BitVec 64)
    (prot : BitVec 32) : MasterCall User (Resp × BitVec 8) := do
  assertBytes
  readWord 8 0 addr prot

end

end Simbus.Axi4
