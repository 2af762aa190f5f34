import Simbus.Axi4.Protocol

/-!
# Sessions of a master and a slave

A master connects, resets the bus and makes accesses, with waits between them;
a slave serves them.
-/

namespace Simbus.Axi4

open FourValued Clocked

/-! ## Commands -/

/-- The widths of the functions for one word. -/
inductive AccessWidth where
  | w8
  | w16
  | w32
  | w64
  deriving DecidableEq

/-- The number of bits. -/
def AccessWidth.bits : AccessWidth → Nat
  | .w8 => 8
  | .w16 => 16
  | .w32 => 32
  | .w64 => 64

/-- The arguments of a read or write; a read has no use for the data. -/
structure Access where
  direction : Direction
  width : AccessWidth
  addr : BitVec 64
  prot : BitVec 32
  data : BitVec width.bits

section

variable {User Device : Type}

/-- A write, with the data it has been given. -/
def writeAccess
    {width : Nat}
    (write : BitVec 64 → BitVec 32 → BitVec width → MasterCall User Resp)
    (addr : BitVec 64)
    (prot : BitVec 32)
    (data : BitVec width) : MasterCall User (Resp × BitVec width) := do
  let resp ← write addr prot data
  return (resp, data)

/-- The function of the library for an access: its response and the data. -/
def Access.perform :
    (access : Access) → MasterCall User (Resp × BitVec access.width.bits)
  | ⟨.write, .w8, addr, prot, data⟩ =>
      writeAccess simbusAxi4Write8 addr prot data
  | ⟨.write, .w16, addr, prot, data⟩ =>
      writeAccess simbusAxi4Write16 addr prot data
  | ⟨.write, .w32, addr, prot, data⟩ =>
      writeAccess simbusAxi4Write32 addr prot data
  | ⟨.write, .w64, addr, prot, data⟩ =>
      writeAccess simbusAxi4Write64 addr prot data
  | ⟨.read, .w8, addr, prot, _⟩ => simbusAxi4Read8 addr prot
  | ⟨.read, .w16, addr, prot, _⟩ => simbusAxi4Read16 addr prot
  | ⟨.read, .w32, addr, prot, _⟩ => simbusAxi4Read32 addr prot
  | ⟨.read, .w64, addr, prot, _⟩ => simbusAxi4Read64 addr prot

/-- What a user of the library calls between accesses that matter to it. -/
inductive Command where
  | wait (clks : Nat) (irqMask : Option (BitVec 32))
  | reset (width settle : Nat)
  | access (access : Access)

/-- The call, without its result. -/
def Command.perform : Command → MasterCall User Unit
  | .wait clks irqMask => do
      let _ ← simbusAxi4Wait clks irqMask
  | .reset width settle => simbusAxi4Reset width settle
  | .access one => do
      let _ ← one.perform

/-- One call after the other. -/
def perform : List Command → MasterCall User Unit
  | [] => pure ()
  | command :: commands => do
      command.perform
      perform commands

/-! ## Connections -/

/-- The server and its clients as they start. -/
structure Connection (User Device : Type) where
  server : Widths
  masterWidths : Widths
  slaveWidths : Widths
  user : User
  device : SlaveDevice Device
  deviceUser : Device

namespace Connection

/-- The server and the clients before the first exchange. -/
def start
    {Value : Type}
    (connection : Connection User Device)
    (program : MasterCall User Value) :
    Lockstep Nat (SimbusAxi4 User) MasterReply Value (SimbusAxi4 Device)
      SlaveReply Int where
  server := 0
  first := program.start
    (SimbusAxi4.init connection.user connection.masterWidths)
  second := (simbusAxi4Slave connection.device).start
    (SimbusAxi4.init connection.deviceUser connection.slaveWidths)

/--
The master comes to the end of a program, inside all arrays, and the slave
still runs.
-/
def Returns
    {Value : Type}
    (connection : Connection User Device)
    (program : MasterCall User Value)
    (value : Value)
    (slave : SimbusAxi4 Device) : Prop :=
  connection.masterWidths.InArrays ∧ connection.slaveWidths.InArrays ∧
    ∃ phase master second,
      Pair.Reaches (answer connection.server) (connection.start program)
        ⟨phase, .finish value master, second⟩ ∧
      second.run [] = .waiting slave

end Connection

/-! ## One access -/

/-- An access keeps to the assertions of the master. -/
structure Access.Valid (widths : Widths) (access : Access) : Prop where
  fits : access.width.bits ≤ widths.dataWidth
  aligned : access.addr.toNat % (access.width.bits / 8) = 0
  inRange : access.addr.toNat < 2 ^ widths.addrWidth

/-- The slave has a branch for accesses of this kind. -/
def Access.HasBranch (access : Access) : Prop :=
  match access.direction, access.width with
  | .write, .w8 | .write, .w32 => True
  | .write, .w16 | .write, .w64 => False
  | .read, .w8 | .read, .w16 | .read, .w32 => True
  | .read, .w64 => False

instance (access : Access) : Decidable access.HasBranch := by
  unfold Access.HasBranch
  split <;> infer_instance

/-- The callback that the slave makes for an access. -/
def Access.call
    (access : Access)
    (data : BitVec access.width.bits)
    (resp : Resp) : SlaveCall :=
  ⟨access.direction, access.width.bits, access.addr, 0, data, resp⟩

/-- All callbacks of a slave are provided. -/
structure SlaveDevice.Complete (dev : SlaveDevice Device) : Prop where
  write64 : dev.write64.isSome
  write32 : dev.write32.isSome
  write16 : dev.write16.isSome
  write8 : dev.write8.isSome
  read64 : dev.read64.isSome
  read32 : dev.read32.isSome
  read16 : dev.read16.isSome
  read8 : dev.read8.isSome

/-- The widths of a bus on which an access finds its place. -/
structure Widths.Carries
    (widths : Widths)
    (width : Nat)
    (addr : BitVec 64) : Prop where
  narrow : widths.addrWidth ≤ 64
  small : widths.dataWidth ≤ 64
  fits : dataPref widths addr * 8 + width ≤ widths.dataWidth
  aligned : addr.toNat % (width / 8) = 0
  inRange : addr.toNat < 2 ^ widths.addrWidth

/-- No word of the access puts a 1 on ARVALID. -/
def Access.KeepsArvalid (widths : Widths) (access : Access) : Prop :=
  access.direction = .write → ∀ idx, idx < access.width.bits →
    dataPref widths access.addr * 8 + idx = 73 →
    access.data.getLsbD idx = false

/-- The access is one that the slave can answer. -/
structure Access.Answered
    (dev : SlaveDevice Device)
    (widths : Widths)
    (access : Access) : Prop where
  fits : access.width.bits ≤ widths.dataWidth
  carries : widths.Carries access.width.bits access.addr
  complete : dev.Complete
  wide : access.direction = .write → widths.widWidth ≠ 1

end

end Simbus.Axi4
