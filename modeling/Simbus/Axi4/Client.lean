import Simbus.Clocked.Program
import Simbus.Axi4.Signals

/-!
# The libsimbus AXI4 client

State of either end of an AXI4 bus in the C library, and the exchange of
messages with the server.  A callback of the slave may change the user's own
data; it does not use the bus.
-/

namespace Simbus.Axi4

open FourValued Clocked

/-! ## State -/

/-- A write callback: address, protection and data. -/
abbrev WriteFun (User : Type) (width : Nat) : Type :=
  BitVec 64 → BitVec 32 → BitVec width → User → Resp × User

/-- A read callback, which also produces the data. -/
abbrev ReadFun (User : Type) (width : Nat) : Type :=
  BitVec 64 → BitVec 32 → User → Resp × BitVec width × User

/-- `struct simbus_axi4s_slave_s`. -/
structure SlaveDevice (User : Type) where
  write64 : Option (WriteFun User 64)
  write32 : Option (WriteFun User 32)
  write16 : Option (WriteFun User 16)
  write8 : Option (WriteFun User 8)
  read64 : Option (ReadFun User 64)
  read32 : Option (ReadFun User 32)
  read16 : Option (ReadFun User 16)
  read8 : Option (ReadFun User 8)

/-- What the slave keeps of the addresses it has accepted. -/
structure SlaveLatch where
  waddr : BitVec 64
  wsize : BitVec 8
  wlen : BitVec 8
  wprot : BitVec 8
  raddr : BitVec 64
  rsize : BitVec 8
  rlen : BitVec 8
  rprot : BitVec 8
  deriving DecidableEq

/-- The direction of an access. -/
inductive Direction where
  | write
  | read
  deriving DecidableEq

/-- A callback that has been made: its arguments, its data, its answer. -/
structure SlaveCall where
  direction : Direction
  width : Nat
  addr : BitVec 64
  prot : BitVec 32
  data : BitVec width
  resp : Resp
  deriving DecidableEq

/-- A clock edge of the slave: the signals there and the callbacks made. -/
structure SlaveEdge where
  signals : Axi4Signals
  calls : List SlaveCall

/--
`struct simbus_axi4_s`.

The last two fields are no data of the client: they record the edges at which
the slave machine has run since the slave was started or last reset, and all
callbacks that have been made.
-/
structure SimbusAxi4 (User : Type) extends Axi4Signals where
  user : User
  device : Option (SlaveDevice User)
  widths : Widths
  slave : SlaveLatch
  edges : List SlaveEdge
  calls : List SlaveCall

/-- What arrives at the master: an UNTIL, or FINISH (or a closed stream). -/
inductive MasterReply where
  | until (aclk : Logic4) (text : SlaveSignal → Text)
  | finish

/-- What arrives at the slave. -/
inductive SlaveReply where
  | until (aclk : Logic4) (text : MasterSignal → Text)
  | finish

/-- A function of the library for masters. -/
abbrev MasterCall (User Value : Type) : Type :=
  Program (SimbusAxi4 User) MasterReply Value

/-- A function of the library for slaves. -/
abbrev SlaveCode (User Value : Type) : Type :=
  Program (SimbusAxi4 User) SlaveReply Value

/-- `SIMBUS_AXI4_FINISHED`. -/
def simbusAxi4Finished : Int := -2

/-- The values of an address channel before it is used. -/
def AddressChannel.unused : AddressChannel where
  valid := .zero
  addr := fun _ => .x
  len := fun _ => .x
  size := fun _ => .x
  burst := fun _ => .x
  lock := fun _ => .x
  cache := fun _ => .x
  prot := fun _ => .x
  qos := fun _ => .x
  id := fun _ => .x

namespace SimbusAxi4

section

variable {User : Type}

/--
`simbus_axi4_connect` with `init_simbus_axi4` on zeroed memory.  The values
meant for `rid` go to `arid`, and only the third one of the two of `rresp`
reaches it.
-/
def init (user : User) (widths : Widths) : SimbusAxi4 User where
  aresetN := .one
  aw := .unused
  wvalid := .zero
  wdata := fun _ => .x
  wstrb := fun _ => .x
  bready := .zero
  ar := { AddressChannel.unused with id := fun _ => .z }
  rready := .zero
  aclk := .x
  awready := .z
  wready := .z
  bvalid := .z
  bresp := fun _ => .z
  bid := fun _ => .z
  arready := .z
  rvalid := .z
  rdata := fun _ => .z
  rresp := fun _ => .z
  rid := fun idx => if idx = 0 then .z else .zero
  irq := fun _ => .zero
  user := user
  device := none
  widths := widths
  slave :=
    { waddr := 0, wsize := 0, wlen := 0, wprot := 0,
      raddr := 0, rsize := 0, rlen := 0, rprot := 0 }
  edges := []
  calls := []

/-! ## Neighbours in memory -/

/-- The values from `wdata` on. -/
def fromWdata (bus : SimbusAxi4 User) : Bits := fun idx =>
  if idx < 64 then
    bus.wdata idx
  else if idx < 72 then
    bus.wstrb (idx - 64)
  else if idx = 72 then
    bus.bready
  else if idx = 73 then
    bus.ar.valid
  else
    bus.ar.addr (idx - 74)

/-- The values from `rdata` on. -/
def fromRdata (bus : SimbusAxi4 User) : Bits := fun idx =>
  if idx < 64 then
    bus.rdata idx
  else if idx < 66 then
    bus.rresp (idx - 64)
  else
    bus.rid (idx - 66)

/-! ## Messages -/

/-- The READY of the master. -/
def masterReady (bus : SimbusAxi4 User) : MasterSignal → Text
  | .aresetN => encodeBit bus.aresetN
  | .awvalid => encodeBit bus.aw.valid
  | .awaddr => encode bus.widths.addrWidth bus.aw.addr
  | .awlen => encode 8 bus.aw.len
  | .awsize => encode 3 bus.aw.size
  | .awburst => encode 2 bus.aw.burst
  | .awlock => encode 2 bus.aw.lock
  | .awcache => encode 4 bus.aw.cache
  | .awprot => encode 3 bus.aw.prot
  | .awqos => encode 4 bus.aw.qos
  | .awid => encode bus.widths.widWidth bus.aw.id
  | .wvalid => encodeBit bus.wvalid
  | .wdata => encode bus.widths.dataWidth bus.wdata
  | .wstrb => encode (bus.widths.dataWidth / 8) bus.wstrb
  | .bready => encodeBit bus.bready
  | .arvalid => encodeBit bus.ar.valid
  | .araddr => encode bus.widths.addrWidth bus.ar.addr
  | .arlen => encode 8 bus.ar.len
  | .arsize => encode 3 bus.ar.size
  | .arburst => encode 2 bus.ar.burst
  | .arlock => encode 2 bus.ar.lock
  | .arcache => encode 4 bus.ar.cache
  | .arprot => encode 3 bus.ar.prot
  | .arqos => encode 4 bus.ar.qos
  | .arid => encode bus.widths.ridWidth bus.ar.id
  | .rready => encodeBit bus.rready

/-- The READY of the slave.  The text of RID is taken from `bid`. -/
def slaveReady (bus : SimbusAxi4 User) : SlaveSignal → Text
  | .awready => encodeBit bus.awready
  | .wready => encodeBit bus.wready
  | .bvalid => encodeBit bus.bvalid
  | .bresp => encode 2 bus.bresp
  | .bid => encode bus.widths.widWidth bus.bid
  | .arready => encodeBit bus.arready
  | .rvalid => encodeBit bus.rvalid
  | .rdata => encode bus.widths.dataWidth bus.rdata
  | .rresp => encode 2 bus.rresp
  | .rid => encode bus.widths.ridWidth bus.bid
  | .irq => encode bus.widths.irqWidth bus.irq

/-- The length a slave expects of a text, where it checks it. -/
def masterLength (widths : Widths) : MasterSignal → Option Nat
  | .awaddr | .araddr => some widths.addrWidth
  | .awlen | .arlen => some 8
  | .awsize | .arsize | .awprot | .arprot => some 3
  | .awburst | .arburst | .awlock | .arlock => some 2
  | .awcache | .arcache | .awqos | .arqos => some 4
  | .awid => some widths.widWidth
  | .arid => some widths.ridWidth
  | .wdata => some widths.dataWidth
  | .wstrb => some (widths.dataWidth / 8)
  | .aresetN | .awvalid | .wvalid | .bready | .arvalid | .rready => none

/-- The length a master expects of a text, where it checks it. -/
def slaveLength (widths : Widths) : SlaveSignal → Option Nat
  | .bresp | .rresp => some 2
  | .bid => some widths.widWidth
  | .rid => some widths.ridWidth
  | .rdata => some widths.dataWidth
  | .irq => some widths.irqWidth
  | .awready | .wready | .bvalid | .arready | .rvalid => none

end

end SimbusAxi4

/-! ## Arrays -/

/-- `AXI4_MAX_ADDR`. -/
def axi4MaxAddr : Nat := 64

/-- `AXI4_MAX_DATA`. -/
def axi4MaxData : Nat := 64

/-- `AXI4_MAX_ID`. -/
def axi4MaxId : Nat := 64

/-- `AXI4_MAX_IRQ`. -/
def axi4MaxIrq : Nat := 32

/-- The number of values that the variable of a signal has. -/
def MasterSignal.size : MasterSignal → Nat
  | .aresetN | .awvalid | .wvalid | .bready | .arvalid | .rready => 1
  | .awaddr | .araddr => axi4MaxAddr
  | .wdata => axi4MaxData
  | .wstrb => axi4MaxData / 8
  | .awid | .arid => axi4MaxId
  | .awlen | .arlen => 8
  | .awsize | .arsize | .awprot | .arprot => 3
  | .awburst | .arburst | .awlock | .arlock => 2
  | .awcache | .arcache | .awqos | .arqos => 4

/-- The number of values that the variable of a signal has. -/
def SlaveSignal.size : SlaveSignal → Nat
  | .awready | .wready | .bvalid | .arready | .rvalid => 1
  | .bresp | .rresp => 2
  | .rdata => axi4MaxData
  | .bid | .rid => axi4MaxId
  | .irq => axi4MaxIrq

/--
The messages of a bus read and write inside the arrays of its clients.  What a
client reads or writes beyond them is undefined, and nothing but
`simbus_axi4_connect` keeps it from that, which looks at addresses and data only.
-/
structure Widths.InArrays (widths : Widths) : Prop where
  master : ∀ (signal : MasterSignal) (length : Nat),
    SimbusAxi4.masterLength widths signal = some length →
    length ≤ signal.size
  slave : ∀ (signal : SlaveSignal) (length : Nat),
    SimbusAxi4.slaveLength widths signal = some length →
    length ≤ signal.size

/-- The ids and the interrupts of a bus are no more than the arrays hold. -/
structure Widths.FewIds (widths : Widths) : Prop where
  wid : widths.widWidth ≤ axi4MaxId
  rid : widths.ridWidth ≤ axi4MaxId
  irq : widths.irqWidth ≤ axi4MaxIrq

/-- Whatever `simbus_axi4_connect` lets pass is in its array but for these. -/
theorem Widths.inArrays_iff
    {widths : Widths}
    (addrWidth : widths.addrWidth ≤ axi4MaxAddr)
    (dataWidth : widths.dataWidth ≤ axi4MaxData) :
    widths.InArrays ↔ widths.FewIds := by
  constructor
  · intro inside
    exact ⟨inside.master .awid _ rfl, inside.master .arid _ rfl,
      inside.slave .irq _ rfl⟩
  · rintro ⟨wid, rid, irq⟩
    have wstrb : widths.dataWidth / 8 ≤ axi4MaxData / 8 :=
      Nat.div_le_div_right dataWidth
    constructor
    · rintro signal length isLength
      cases signal <;> cases isLength <;> first | assumption | exact Nat.le_refl _
    · rintro signal length isLength
      cases signal <;> cases isLength <;> first | assumption | exact Nat.le_refl _

namespace SimbusAxi4

section

variable {User : Type}

/-- The texts of an UNTIL have the lengths that are checked. -/
def HasLengths
    {Signal : Type}
    (length : Signal → Option Nat)
    (text : Signal → Text) : Prop :=
  ∀ signal,
    length signal = none ∨ length signal = some (text signal).length

instance
    (length : MasterSignal → Option Nat)
    (text : MasterSignal → Text) : Decidable (HasLengths length text) :=
  inferInstanceAs (Decidable (∀ _, _ ∨ _))

instance
    (length : SlaveSignal → Option Nat)
    (text : SlaveSignal → Text) : Decidable (HasLengths length text) :=
  inferInstanceAs (Decidable (∀ _, _ ∨ _))

/--
The BID of an UNTIL.  It comes as token 5, and every value is written to
`bid[wid_width - 1 - 5]`, which may lie in front of the array.
-/
def sampleBid
    (bus : SimbusAxi4 User)
    (text : Text) : SimbusAxi4 User :=
  match text.getLast? with
  | none => bus
  | some value =>
      match bus.widths.widWidth with
      | 0 => bus
      | 1 => { bus with awready := value }
      | 2 => { bus with wready := value }
      | 3 => { bus with bvalid := value }
      | 4 => { bus with bresp := Function.update bus.bresp 0 value }
      | 5 => { bus with bresp := Function.update bus.bresp 1 value }
      | width + 6 => { bus with bid := Function.update bus.bid width value }

/-- The inputs of a master after an UNTIL, whose tokens come in this order. -/
def sampleMaster
    (bus : SimbusAxi4 User)
    (aclk : Logic4)
    (text : SlaveSignal → Text) : SimbusAxi4 User :=
  let bus := { bus with aclk := aclk }
  let bus := { bus with arready := decodeBit (text .arready) }
  let bus := { bus with awready := decodeBit (text .awready) }
  let bus := bus.sampleBid (text .bid)
  { bus with
    bresp := decode (text .bresp) bus.bresp
    bvalid := decodeBit (text .bvalid)
    irq := decode (text .irq) bus.irq
    rdata := decode (text .rdata) bus.rdata
    rid := decode (text .rid) bus.rid
    rresp := decode (text .rresp) bus.rresp
    rvalid := decodeBit (text .rvalid)
    wready := decodeBit (text .wready) }

/-- The inputs of a slave after an UNTIL. -/
def sampleSlave
    (bus : SimbusAxi4 User)
    (aclk : Logic4)
    (text : MasterSignal → Text) : SimbusAxi4 User :=
  { bus with
    aclk := aclk
    aresetN := decodeBit (text .aresetN)
    aw :=
      { valid := decodeBit (text .awvalid)
        addr := decode (text .awaddr) bus.aw.addr
        len := decode (text .awlen) bus.aw.len
        size := decode (text .awsize) bus.aw.size
        burst := decode (text .awburst) bus.aw.burst
        lock := decode (text .awlock) bus.aw.lock
        cache := decode (text .awcache) bus.aw.cache
        prot := decode (text .awprot) bus.aw.prot
        qos := decode (text .awqos) bus.aw.qos
        id := decode (text .awid) bus.aw.id }
    wvalid := decodeBit (text .wvalid)
    wdata := decode (text .wdata) bus.wdata
    wstrb := decode (text .wstrb) bus.wstrb
    bready := decodeBit (text .bready)
    ar :=
      { valid := decodeBit (text .arvalid)
        addr := decode (text .araddr) bus.ar.addr
        len := decode (text .arlen) bus.ar.len
        size := decode (text .arsize) bus.ar.size
        burst := decode (text .arburst) bus.ar.burst
        lock := decode (text .arlock) bus.ar.lock
        cache := decode (text .arcache) bus.ar.cache
        prot := decode (text .arprot) bus.ar.prot
        qos := decode (text .arqos) bus.ar.qos
        id := decode (text .arid) bus.ar.id }
    rready := decodeBit (text .rready) }

end

end SimbusAxi4

section

variable {User : Type}

/-- `__axi4_ready_command`. -/
def axi4ReadyCommand : MasterCall User Int :=
  Program.exchange fun
    | .finish => pure simbusAxi4Finished
    | .until aclk text => do
        Program.assert fun bus =>
          decide (SimbusAxi4.HasLengths (SimbusAxi4.slaveLength bus.widths) text)
        Program.modifyState fun bus => bus.sampleMaster aclk text
        return 0

end

end Simbus.Axi4
