import Simbus.Axi4.Client

/-!
# The AXI4 slave of libsimbus

The machine that `simbus_axi4_slave` runs at each clock edge, and the loop
around it.  A step of the machine has no result when an assertion fails.
-/

namespace Simbus.Axi4

open FourValued Clocked

section

variable {User : Type}

/-! ## Callbacks -/

/-- What comes of a data beat: its response, and what was called for it. -/
structure Served (User : Type) where
  resp : Resp
  calls : List SlaveCall
  user : User

/-- `use_wid`: the number of bits in a beat. -/
def useWid (size : BitVec 8) : Nat :=
  8 * 2 ^ size.toNat

/-- `bit_offset`: where in a word of the bus an address lies. -/
def bitOffset (widths : Widths) (addr : BitVec 64) : Nat :=
  addr.toNat % (widths.dataWidth / 8) * 8

/-- The part of `write_data` for a width that has a callback. -/
def writeLane
    (width : Nat)
    (select : SlaveDevice User → Option (WriteFun User width))
    (bus : SimbusAxi4 User) : Option (Served User) := do
  let device ← bus.device
  let callback ← select device
  let addr := bus.slave.waddr
  let prot := bus.slave.wprot.setWidth 32
  let offset := bitOffset bus.widths addr
  let data := bitsToUint width width fun idx => bus.fromWdata (offset + idx)
  let (resp, user) := callback addr prot data bus.user
  some
    { resp := resp
      calls := [⟨.write, width, addr, prot, data, resp⟩]
      user := user }

/-- `write_data`. -/
def writeData (bus : SimbusAxi4 User) : Option (Served User) :=
  let wid := useWid bus.slave.wsize
  if wid ≤ bus.widths.dataWidth ∧ bus.slave.waddr.toNat % (wid / 8) = 0 then
    if wid = 32 then
      writeLane 32 SlaveDevice.write32 bus
    else if wid = 8 then
      writeLane 8 SlaveDevice.write8 bus
    else
      some { resp := .slverr, calls := [], user := bus.user }
  else
    none

/-- `rdata` before a word is put there. -/
def blankData (bus : SimbusAxi4 User) : Bits := fun idx =>
  if idx < bus.widths.dataWidth then .x else bus.rdata idx

/-- An array of values after a word has been written to a part of it. -/
def putWord
    {width : Nat}
    (data : BitVec width)
    (offset : Nat)
    (bits : Bits) : Bits := fun idx =>
  if offset ≤ idx ∧ idx < offset + width then
    bitsOf data (idx - offset)
  else
    bits idx

/-- The distance from `rdata` to `rid`. -/
def ridOffset : Nat :=
  64 + 2

/--
The part of `read_data` for a width that has a callback.  A word may reach
over the end of `rdata` and then over that of `rresp`.
-/
def readLane
    (width : Nat)
    (select : SlaveDevice User → Option (ReadFun User width))
    (bus : SimbusAxi4 User) :
    Option (Served User × SimbusAxi4 User) := do
  let device ← bus.device
  let callback ← select device
  let addr := bus.slave.raddr
  let prot := bus.slave.rprot.setWidth 32
  let offset := bitOffset bus.widths addr
  let (resp, data, user) := callback addr prot bus.user
  let served :=
    { resp := resp
      calls := [⟨.read, width, addr, prot, data, resp⟩]
      user := user }
  let behind : Bits := fun idx => bus.rid (idx - ridOffset)
  some (served,
    { bus with
      rdata := putWord data offset (blankData bus)
      rid := fun idx => putWord data offset behind (idx + ridOffset) })

/-- `read_data`. -/
def readData
    (bus : SimbusAxi4 User) : Option (Served User × SimbusAxi4 User) :=
  let wid := useWid bus.slave.rsize
  if wid ≤ bus.widths.dataWidth then
    if wid = 32 then
      readLane 32 SlaveDevice.read32 bus
    else if wid = 16 then
      readLane 16 SlaveDevice.read16 bus
    else if wid = 8 then
      readLane 8 SlaveDevice.read8 bus
    else
      some ({ resp := .slverr, calls := [], user := bus.user },
        { bus with rdata := blankData bus })
  else
    none

/-! ## One clock edge -/

/-- The `next_` variables, and the callbacks made so far. -/
structure Next (User : Type) where
  bus : SimbusAxi4 User
  calls : List SlaveCall
  awready : Logic4
  wready : Logic4
  bvalid : Logic4
  bresp0 : Logic4
  bresp1 : Logic4
  arready : Logic4
  rvalid : Logic4
  rresp0 : Logic4
  rresp1 : Logic4

/-- `resp & 1`. -/
def Resp.lowBit : Resp → Logic4
  | .okay | .slverr => .zero
  | .exokay | .decerr => .one

/-- `resp & 2`, where a 2 is the number of `BIT_X`. -/
def Resp.highBit : Resp → Logic4
  | .okay | .exokay => .zero
  | .slverr | .decerr => .x

namespace Next

/-- The values at the start of the machine. -/
def start (bus : SimbusAxi4 User) : Next User where
  bus := bus
  calls := []
  awready := bus.awready
  wready := bus.wready
  bvalid := bus.bvalid
  bresp0 := bus.bresp 0
  bresp1 := bus.bresp 1
  arready := bus.arready
  rvalid := bus.rvalid
  rresp0 := bus.rresp 0
  rresp1 := bus.rresp 1

/-- Detect a write address. -/
def writeAddress (next : Next User) : Next User :=
  let bus := next.bus
  if bus.aw.valid = .one ∧ bus.awready = .one then
    { next with
      bus :=
        { bus with
          slave :=
            { bus.slave with
              waddr := bitsToUint 64 bus.widths.addrWidth bus.aw.addr
              wsize := bitsToUint 8 3 bus.aw.size
              wlen := bitsToUint 8 8 bus.aw.len } }
      awready := .zero
      wready := .one }
  else if bus.awready = .zero ∧ bus.wready = .zero then
    { next with awready := .one }
  else
    next

/-- Detect write data. -/
def writeBeat (next : Next User) : Option (Next User) :=
  if next.bus.wvalid = .one ∧ next.bus.wready = .one then do
    let served ← writeData next.bus
    some
      { next with
        bus := { next.bus with user := served.user }
        calls := next.calls ++ served.calls
        wready := .zero
        bvalid := .one
        bresp0 := served.resp.lowBit
        bresp1 := served.resp.highBit }
  else
    some next

/-- Detect that the response has been transmitted. -/
def writeResponse (next : Next User) : Next User :=
  if next.bus.bvalid = .one ∧ next.bus.bready = .one then
    { next with
      awready := .one
      bvalid := .zero
      bresp0 := .x
      bresp1 := .x }
  else
    next

/-- Detect a read request.  Every ARREADY but 0 counts as true. -/
def readRequest (next : Next User) : Option (Next User) :=
  let bus := next.bus
  if bus.ar.valid = .one ∧ bus.arready ≠ .zero then do
    let (served, bus) ← readData
      { bus with
        slave :=
          { bus.slave with
            raddr := bitsToUint 64 bus.widths.addrWidth bus.ar.addr
            rsize := bitsToUint 8 3 bus.ar.size
            rlen := bitsToUint 8 8 bus.ar.len } }
    some
      { next with
        bus := { bus with user := served.user }
        calls := next.calls ++ served.calls
        arready := .zero
        rvalid := .one
        rresp0 := served.resp.lowBit
        rresp1 := served.resp.highBit }
  else
    some next

/-- Detect that the read data has been transmitted. -/
def readBeat (next : Next User) : Next User :=
  if next.bus.rvalid = .one ∧ next.bus.rready = .one then
    { next with rvalid := .zero, arready := .one }
  else
    next

/-- A two-bit response. -/
def putResp (bit0 bit1 : Logic4) (bits : Bits) : Bits
  | 0 => bit0
  | 1 => bit1
  | idx + 2 => bits (idx + 2)

/-- The bus with the new values. -/
def finish (next : Next User) : SimbusAxi4 User :=
  { next.bus with
    awready := next.awready
    wready := next.wready
    bvalid := next.bvalid
    bresp := putResp next.bresp0 next.bresp1 next.bus.bresp
    arready := next.arready
    rvalid := next.rvalid
    rresp := putResp next.rresp0 next.rresp1 next.bus.rresp }

end Next

/-- `do_slave_machine`, up to the record of callbacks. -/
def slaveMachine (bus : SimbusAxi4 User) : Option (Next User) := do
  let next ← (Next.start bus).writeAddress.writeBeat
  let next ← next.writeResponse.readRequest
  some next.readBeat

/-- Record an edge. -/
def SimbusAxi4.recordEdge
    (bus : SimbusAxi4 User)
    (signals : Axi4Signals)
    (calls : List SlaveCall) : SimbusAxi4 User :=
  { bus with
    edges := bus.edges ++ [{ signals := signals, calls := calls }]
    calls := bus.calls ++ calls }

/-- `do_slave_machine`. -/
def doSlaveMachine : SlaveCode User Unit where
  start := fun bus =>
    match slaveMachine bus with
    | none => .fail (bus.recordEdge bus.toAxi4Signals [])
    | some next =>
        .finish () (next.finish.recordEdge bus.toAxi4Signals next.calls)

/-- `do_reset`. -/
def reset (bus : SimbusAxi4 User) : SimbusAxi4 User :=
  { bus with
    awready := .one
    wready := .zero
    bvalid := .zero
    bresp := fun _ => .zero
    bid := fun _ => .zero
    arready := .one
    rvalid := .zero
    rdata := fun _ => .zero
    rresp := fun _ => .zero
    rid := fun _ => .zero
    irq := fun _ => .zero
    edges := [] }

/-! ## The loop -/

/-- `__axi4s_ready_command`. -/
def axi4sReadyCommand : SlaveCode User Int :=
  Program.exchange fun
    | .finish => pure simbusAxi4Finished
    | .until aclk text => do
        Program.assert fun bus =>
          decide (SimbusAxi4.HasLengths
            (SimbusAxi4.masterLength bus.widths) text)
        Program.modifyState fun bus => bus.sampleSlave aclk text
        return 0

/-- `do_reset`, as a part of the loop. -/
def doReset : SlaveCode User Unit :=
  Program.modifyState reset

/-- Wait for a value of the clock. -/
def awaitClock (level : Logic4) : SlaveCode User Unit :=
  Program.whileDo (fun bus => bus.aclk ≠ level) do
    let _ ← axi4sReadyCommand

/-- The part of the loop after the clock has fallen. -/
def afterFall : SlaveCode User Unit := do
  let bus ← Program.getState
  if bus.aresetN = .zero then doReset else pure ()

/-- The part of the loop after the clock has risen. -/
def afterRise : SlaveCode User Unit := do
  let bus ← Program.getState
  if bus.aresetN = .zero then doReset else doSlaveMachine

/-- One turn of the loop of `simbus_axi4_slave`. -/
def slaveTurn (_ : Unit) : SlaveCode User (Unit ⊕ Int) := do
  awaitClock .zero
  afterFall
  awaitClock .one
  afterRise
  return .inl ()

/-- `simbus_axi4_slave`. -/
def simbusAxi4Slave (dev : SlaveDevice User) : SlaveCode User Int := do
  Program.assert fun bus => bus.device.isNone
  Program.modifyState fun bus => { bus with device := some dev }
  Program.loop slaveTurn ()

end

end Simbus.Axi4
