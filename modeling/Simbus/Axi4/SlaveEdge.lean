import Simbus.Clocked.Safety
import Simbus.Axi4.Slave

/-!
# One edge of the slave machine

What happens on the five channels at a clock edge, and what the machine makes
of it.  The write channels and the read channels are looked at apart: neither
half of the machine touches what the other one keeps.
-/

namespace Simbus.Axi4

open FourValued Clocked

/-! ## Handshakes -/

namespace Axi4Signals

/-- A write address is transferred. -/
def AcceptsAddress (signals : Axi4Signals) : Prop :=
  signals.aw.valid = .one ∧ signals.awready = .one

/-- Write data are transferred. -/
def AcceptsData (signals : Axi4Signals) : Prop :=
  signals.wvalid = .one ∧ signals.wready = .one

/-- A write response is transferred. -/
def SendsResponse (signals : Axi4Signals) : Prop :=
  signals.bvalid = .one ∧ signals.bready = .one

/-- A read address is transferred. -/
def AcceptsRead (signals : Axi4Signals) : Prop :=
  signals.ar.valid = .one ∧ signals.arready = .one

/-- Read data are transferred. -/
def SendsData (signals : Axi4Signals) : Prop :=
  signals.rvalid = .one ∧ signals.rready = .one

instance (signals : Axi4Signals) : Decidable signals.AcceptsAddress :=
  inferInstanceAs (Decidable (_ ∧ _))

instance (signals : Axi4Signals) : Decidable signals.AcceptsData :=
  inferInstanceAs (Decidable (_ ∧ _))

instance (signals : Axi4Signals) : Decidable signals.SendsResponse :=
  inferInstanceAs (Decidable (_ ∧ _))

instance (signals : Axi4Signals) : Decidable signals.AcceptsRead :=
  inferInstanceAs (Decidable (_ ∧ _))

instance (signals : Axi4Signals) : Decidable signals.SendsData :=
  inferInstanceAs (Decidable (_ ∧ _))

/-- The write address on the bus. -/
def writeAddr (signals : Axi4Signals) (widths : Widths) : BitVec 64 :=
  bitsToUint 64 widths.addrWidth signals.aw.addr

/-- The size of the write on the bus. -/
def writeSize (signals : Axi4Signals) : BitVec 8 :=
  bitsToUint 8 3 signals.aw.size

/-- The read address on the bus. -/
def readAddr (signals : Axi4Signals) (widths : Widths) : BitVec 64 :=
  bitsToUint 64 widths.addrWidth signals.ar.addr

/-- The size of the read on the bus. -/
def readSize (signals : Axi4Signals) : BitVec 8 :=
  bitsToUint 8 3 signals.ar.size

end Axi4Signals

/-- The write callbacks among some. -/
def writesOf (calls : List SlaveCall) : List SlaveCall :=
  calls.filter fun call => call.direction = .write

/-- The read callbacks among some. -/
def readsOf (calls : List SlaveCall) : List SlaveCall :=
  calls.filter fun call => call.direction = .read

section

variable {User : Type}

/-- No assertion fails on a write of this size at this address. -/
structure SlaveDevice.AllowsWrite
    (dev : SlaveDevice User)
    (widths : Widths)
    (addr : BitVec 64)
    (size : BitVec 8) : Prop where
  fits : useWid size ≤ widths.dataWidth
  aligned : addr.toNat % (useWid size / 8) = 0
  write32 : useWid size = 32 → dev.write32.isSome
  write8 : useWid size = 8 → dev.write8.isSome

/-- No assertion fails on a read of this size. -/
structure SlaveDevice.AllowsRead
    (dev : SlaveDevice User)
    (widths : Widths)
    (size : BitVec 8) : Prop where
  fits : useWid size ≤ widths.dataWidth
  read32 : useWid size = 32 → dev.read32.isSome
  read16 : useWid size = 16 → dev.read16.isSome
  read8 : useWid size = 8 → dev.read8.isSome

/-- The size of a write has a callback. -/
def WriteHasCallback (size : BitVec 8) : Prop :=
  useWid size = 32 ∨ useWid size = 8

/-- The size of a read has a callback. -/
def ReadHasCallback (size : BitVec 8) : Prop :=
  useWid size = 32 ∨ useWid size = 16 ∨ useWid size = 8

end

/-! ## Responses -/

/-- The code is one of the two that say that an access has succeeded. -/
def Resp.Succeeds (resp : Resp) : Prop :=
  resp = .okay ∨ resp = .exokay

instance (resp : Resp) : Decidable resp.Succeeds :=
  inferInstanceAs (Decidable (_ ∨ _))

/-- The two values of a response code. -/
def Resp.bits (resp : Resp) : Bits :=
  bitsOf (BitVec.ofNat 2 resp.toNat)

/-- A response signal has the values of a code. -/
def Resp.CarriedBy (resp : Resp) (bits : Bits) : Prop :=
  bits 0 = resp.bits 0 ∧ bits 1 = resp.bits 1

instance (resp : Resp) (bits : Bits) : Decidable (resp.CarriedBy bits) :=
  inferInstanceAs (Decidable (_ ∧ _))

/-- What the machine drives for a code is that code if it is a success. -/
theorem Resp.driven_iff_succeeds (resp : Resp) :
    resp.lowBit = resp.bits 0 ∧ resp.highBit = resp.bits 1 ↔
      resp.Succeeds := by
  cases resp <;> decide

section

variable {User : Type}

/-! ## The two halves of the machine -/

/-- What the machine keeps for the write channels. -/
structure WriteSide where
  wready : Logic4
  bvalid : Logic4
  bresp0 : Logic4
  bresp1 : Logic4
  waddr : BitVec 64
  wsize : BitVec 8
  calls : List SlaveCall

/-- What the machine keeps for the read channels. -/
structure ReadSide where
  arready : Logic4
  rvalid : Logic4
  rresp0 : Logic4
  rresp1 : Logic4
  rdata : Bits
  calls : List SlaveCall

/-- What no step of the machine changes. -/
structure Setting (User : Type) where
  device : Option (SlaveDevice User)
  widths : Widths
  edges : List SlaveEdge

namespace Next

def writeSide (next : Next User) : WriteSide where
  wready := next.wready
  bvalid := next.bvalid
  bresp0 := next.bresp0
  bresp1 := next.bresp1
  waddr := next.bus.slave.waddr
  wsize := next.bus.slave.wsize
  calls := writesOf next.calls

def readSide (next : Next User) : ReadSide where
  arready := next.arready
  rvalid := next.rvalid
  rresp0 := next.rresp0
  rresp1 := next.rresp1
  rdata := next.bus.rdata
  calls := readsOf next.calls

def setting (next : Next User) : Setting User where
  device := next.bus.device
  widths := next.bus.widths
  edges := next.bus.edges

@[simp] theorem start_setting (bus : SimbusAxi4 User) :
    (start bus).setting = ⟨bus.device, bus.widths, bus.edges⟩ :=
  rfl

/-! ### Frames -/

theorem writeAddress_readSide (next : Next User) :
    next.writeAddress.readSide = next.readSide := by
  rw [writeAddress]
  split
  · rfl
  · split <;> rfl

theorem writeAddress_setting (next : Next User) :
    next.writeAddress.setting = next.setting := by
  rw [writeAddress]
  split
  · rfl
  · split <;> rfl

theorem writeResponse_readSide (next : Next User) :
    next.writeResponse.readSide = next.readSide := by
  rw [writeResponse]
  split <;> rfl

theorem writeResponse_setting (next : Next User) :
    next.writeResponse.setting = next.setting := by
  rw [writeResponse]
  split <;> rfl

theorem readBeat_writeSide (next : Next User) :
    next.readBeat.writeSide = next.writeSide := by
  rw [readBeat]
  split <;> rfl

theorem readBeat_setting (next : Next User) :
    next.readBeat.setting = next.setting := by
  rw [readBeat]
  split <;> rfl

end Next

end

section

variable {User : Type}
variable {bus : SimbusAxi4 User}
variable {served : Served User}
variable {dev : SlaveDevice User}

/-! ## Callbacks -/

/-- A call is what a data beat has been served with. -/
structure SlaveCall.Serves
    (call : SlaveCall)
    (direction : Direction)
    (addr : BitVec 64)
    (served : Served User) : Prop where
  only : served.calls = [call]
  direction : call.direction = direction
  addr : call.addr = addr
  resp : call.resp = served.resp

theorem writeLane_serves
    {width : Nat}
    {select : SlaveDevice User → Option (WriteFun User width)}
    (ran : writeLane width select bus = some served) :
    ∃ call : SlaveCall, call.Serves .write bus.slave.waddr served := by
  simp only [writeLane, Option.bind_eq_bind, Option.bind_eq_some_iff,
    Option.some.injEq] at ran
  obtain ⟨device, _, callback, _, rfl⟩ := ran
  exact ⟨_, rfl, rfl, rfl, rfl⟩

/-- The data of a call lie where its address says. -/
def SlaveCall.LiesIn
    (call : SlaveCall)
    (widths : Widths)
    (rdata : Bits) : Prop :=
  ∀ idx < call.width,
    bitOffset widths call.addr + idx < widths.dataWidth ∧
      rdata (bitOffset widths call.addr + idx) = bitsOf call.data idx

instance
    (call : SlaveCall)
    (widths : Widths)
    (rdata : Bits) : Decidable (call.LiesIn widths rdata) :=
  inferInstanceAs (Decidable (∀ idx < call.width, _ ∧ _))

theorem putWord_at
    {width : Nat}
    (data : BitVec width)
    (offset : Nat)
    (bits : Bits)
    {idx : Nat}
    (inside : idx < width) :
    putWord data offset bits (offset + idx) = bitsOf data idx := by
  rw [putWord, if_pos ⟨Nat.le_add_right offset idx, by omega⟩,
    Nat.add_sub_cancel_left]

theorem readLane_serves
    {width : Nat}
    {select : SlaveDevice User → Option (ReadFun User width)}
    {after : SimbusAxi4 User}
    (ran : readLane width select bus = some (served, after)) :
    ∃ call : SlaveCall, call.Serves .read bus.slave.raddr served ∧
      (bitOffset bus.widths bus.slave.raddr + width ≤ bus.widths.dataWidth →
        call.LiesIn bus.widths after.rdata) := by
  simp only [readLane, Option.bind_eq_bind, Option.bind_eq_some_iff,
    Option.some.injEq, Prod.mk.injEq] at ran
  obtain ⟨device, _, callback, _, rfl, rfl⟩ := ran
  refine ⟨_, ⟨rfl, rfl, rfl, rfl⟩, fun fits idx inside => ⟨?_, ?_⟩⟩
  · exact Nat.lt_of_lt_of_le (Nat.add_lt_add_left inside _) fits
  · exact putWord_at _ _ _ inside

/-- A write is served by one call, or by none and with an error. -/
theorem writeData_serves
    (ran : writeData bus = some served) :
    (served.calls = [] ∧ ¬ WriteHasCallback bus.slave.wsize) ∨
      ∃ call : SlaveCall, call.Serves .write bus.slave.waddr served := by
  simp only [writeData] at ran
  split at ran
  · split at ran
    · exact .inr (writeLane_serves ran)
    · split at ran
      · exact .inr (writeLane_serves ran)
      · rename_i not32 not8
        cases ran
        exact .inl ⟨rfl, Or.rec not32 not8⟩
  · cases ran

/-- A read is served by one call, or by none and with an error. -/
theorem readData_serves
    {after : SimbusAxi4 User}
    (ran : readData bus = some (served, after)) :
    (served.calls = [] ∧ ¬ ReadHasCallback bus.slave.rsize) ∨
      ∃ call : SlaveCall, call.Serves .read bus.slave.raddr served ∧
        (bitOffset bus.widths bus.slave.raddr + useWid bus.slave.rsize ≤
            bus.widths.dataWidth →
          call.LiesIn bus.widths after.rdata) := by
  simp only [readData] at ran
  split at ran
  · split at ran
    · rename_i is32
      rw [is32]
      exact .inr (readLane_serves ran)
    · split at ran
      · rename_i is16
        rw [is16]
        exact .inr (readLane_serves ran)
      · split at ran
        · rename_i is8
          rw [is8]
          exact .inr (readLane_serves ran)
        · rename_i not32 not16 not8
          cases ran
          exact .inl ⟨rfl, Or.rec not32 (Or.rec not16 not8)⟩
  · cases ran

theorem writeLane_isSome
    {width : Nat}
    {select : SlaveDevice User → Option (WriteFun User width)}
    (device : bus.device = some dev)
    (provided : (select dev).isSome) :
    ∃ served, writeLane width select bus = some served := by
  obtain ⟨callback, isCallback⟩ := Option.isSome_iff_exists.mp provided
  simp only [writeLane, device, isCallback, Option.bind_eq_bind,
    Option.bind_some]
  exact ⟨_, rfl⟩

theorem readLane_isSome
    {width : Nat}
    {select : SlaveDevice User → Option (ReadFun User width)}
    (device : bus.device = some dev)
    (provided : (select dev).isSome) :
    ∃ served after, readLane width select bus = some (served, after) := by
  obtain ⟨callback, isCallback⟩ := Option.isSome_iff_exists.mp provided
  simp only [readLane, device, isCallback, Option.bind_eq_bind,
    Option.bind_some]
  exact ⟨_, _, rfl⟩

theorem writeData_isSome
    (device : bus.device = some dev)
    (allows : dev.AllowsWrite bus.widths bus.slave.waddr bus.slave.wsize) :
    ∃ served, writeData bus = some served := by
  simp only [writeData]
  rw [if_pos ⟨allows.fits, allows.aligned⟩]
  split
  · rename_i is32
    exact writeLane_isSome device (allows.write32 is32)
  · split
    · rename_i is8
      exact writeLane_isSome device (allows.write8 is8)
    · exact ⟨_, rfl⟩

theorem readData_isSome
    (device : bus.device = some dev)
    (allows : dev.AllowsRead bus.widths bus.slave.rsize) :
    ∃ served after, readData bus = some (served, after) := by
  simp only [readData]
  rw [if_pos allows.fits]
  split
  · rename_i is32
    exact readLane_isSome device (allows.read32 is32)
  · split
    · rename_i is16
      exact readLane_isSome device (allows.read16 is16)
    · split
      · rename_i is8
        exact readLane_isSome device (allows.read8 is8)
      · exact ⟨_, _, rfl⟩

theorem SlaveCall.Serves.writes
    {call : SlaveCall}
    {addr : BitVec 64}
    (serves : call.Serves .write addr served) :
    writesOf served.calls = [call] ∧ readsOf served.calls = [] := by
  rw [serves.only]
  simp [writesOf, readsOf, serves.direction]

theorem SlaveCall.Serves.reads
    {call : SlaveCall}
    {addr : BitVec 64}
    (serves : call.Serves .read addr served) :
    readsOf served.calls = [call] ∧ writesOf served.calls = [] := by
  rw [serves.only]
  simp [writesOf, readsOf, serves.direction]

theorem readsOf_writeData
    (ran : writeData bus = some served) :
    readsOf served.calls = [] := by
  rcases writeData_serves ran with ⟨none, _⟩ | ⟨call, serves⟩
  · rw [none]
    rfl
  · exact serves.writes.2

theorem writesOf_readData
    {after : SimbusAxi4 User}
    (ran : readData bus = some (served, after)) :
    writesOf served.calls = [] := by
  rcases readData_serves ran with ⟨none, _⟩ | ⟨call, serves, _⟩
  · rw [none]
    rfl
  · exact serves.reads.2

/-- A read changes nothing but the data and what may lie behind them. -/
theorem readData_keeps
    {after : SimbusAxi4 User}
    (ran : readData bus = some (served, after)) :
    after = { bus with rdata := after.rdata, rid := after.rid } := by
  have lane : ∀ {width : Nat}
      {select : SlaveDevice User → Option (ReadFun User width)},
      readLane width select bus = some (served, after) →
      after = { bus with rdata := after.rdata, rid := after.rid } := by
    intro width select ran
    simp only [readLane, Option.bind_eq_bind, Option.bind_eq_some_iff,
      Option.some.injEq, Prod.mk.injEq] at ran
    obtain ⟨device, _, callback, _, _, rfl⟩ := ran
    rfl
  simp only [readData] at ran
  split at ran
  · split at ran
    · exact lane ran
    · split at ran
      · exact lane ran
      · split at ran
        · exact lane ran
        · cases ran
          rfl
  · cases ran

namespace Next

variable {next after : Next User}

/-- What a data beat does. -/
theorem writeBeat_cases
    (ran : next.writeBeat = some after) :
    (next.bus.AcceptsData ∧ ∃ served, writeData next.bus = some served ∧
      after =
        { next with
          bus := { next.bus with user := served.user }
          calls := next.calls ++ served.calls
          wready := .zero
          bvalid := .one
          bresp0 := served.resp.lowBit
          bresp1 := served.resp.highBit }) ∨
      (¬ next.bus.AcceptsData ∧ after = next) := by
  rw [writeBeat] at ran
  split at ran
  · rename_i accepts
    simp only [Option.bind_eq_bind, Option.bind_eq_some_iff,
      Option.some.injEq] at ran
    obtain ⟨served, wrote, rfl⟩ := ran
    exact .inl ⟨accepts, served, wrote, rfl⟩
  · rename_i accepts
    cases ran
    exact .inr ⟨accepts, rfl⟩

theorem writeBeat_isSome
    (device : next.bus.device = some dev)
    (allows : next.bus.AcceptsData →
      dev.AllowsWrite next.bus.widths next.bus.slave.waddr
        next.bus.slave.wsize) :
    ∃ after, next.writeBeat = some after := by
  rw [writeBeat]
  split
  · rename_i accepts
    obtain ⟨served, wrote⟩ := writeData_isSome device (allows accepts)
    simp only [wrote, Option.bind_eq_bind, Option.bind_some]
    exact ⟨_, rfl⟩
  · exact ⟨_, rfl⟩

theorem writeBeat_readSide
    (ran : next.writeBeat = some after) :
    after.readSide = next.readSide := by
  rcases writeBeat_cases ran with ⟨_, served, wrote, rfl⟩ | ⟨_, rfl⟩
  · simp only [readSide, readsOf, List.filter_append]
    rw [← readsOf, ← readsOf, readsOf_writeData wrote, List.append_nil]
  · rfl

theorem writeBeat_setting
    (ran : next.writeBeat = some after) :
    after.setting = next.setting := by
  rcases writeBeat_cases ran with ⟨_, served, _, rfl⟩ | ⟨_, rfl⟩
  · rfl
  · rfl

/-- What a read request does. -/
theorem readRequest_cases
    (ran : next.readRequest = some after) :
    ((next.bus.ar.valid = .one ∧ next.bus.arready ≠ .zero) ∧
      ∃ latch served bus',
        latch =
          { next.bus.slave with
            raddr := next.bus.readAddr next.bus.widths
            rsize := next.bus.readSize
            rlen := bitsToUint 8 8 next.bus.ar.len } ∧
        readData { next.bus with slave := latch } = some (served, bus') ∧
        after =
          { next with
            bus := { bus' with user := served.user }
            calls := next.calls ++ served.calls
            arready := .zero
            rvalid := .one
            rresp0 := served.resp.lowBit
            rresp1 := served.resp.highBit }) ∨
      (¬ (next.bus.ar.valid = .one ∧ next.bus.arready ≠ .zero) ∧
        after = next) := by
  simp only [readRequest] at ran
  split at ran
  · rename_i requests
    simp only [Option.bind_eq_bind, Option.bind_eq_some_iff,
      Option.some.injEq, Prod.exists] at ran
    obtain ⟨served, bus', did, rfl⟩ := ran
    exact .inl ⟨requests, _, served, bus', rfl, did, rfl⟩
  · rename_i requests
    cases ran
    exact .inr ⟨requests, rfl⟩

theorem readRequest_isSome
    (device : next.bus.device = some dev)
    (allows : next.bus.ar.valid = .one → next.bus.arready ≠ .zero →
      dev.AllowsRead next.bus.widths next.bus.readSize) :
    ∃ after, next.readRequest = some after := by
  simp only [readRequest]
  split
  · rename_i requests
    have allows := allows requests.1 requests.2
    have read : ∃ served after, readData
        { next.bus with
          slave :=
            { next.bus.slave with
              raddr := next.bus.readAddr next.bus.widths
              rsize := next.bus.readSize
              rlen := bitsToUint 8 8 next.bus.ar.len } } =
        some (served, after) :=
      readData_isSome device allows
    obtain ⟨served, after, read⟩ := read
    simp only [Axi4Signals.readAddr, Axi4Signals.readSize] at read
    simp only [read, Option.bind_eq_bind, Option.bind_some]
    exact ⟨_, rfl⟩
  · exact ⟨_, rfl⟩

theorem readRequest_writeSide
    (ran : next.readRequest = some after) :
    after.writeSide = next.writeSide := by
  rcases readRequest_cases ran with
    ⟨_, latch, served, bus', rfl, did, rfl⟩ | ⟨_, rfl⟩
  · have same := readData_keeps did
    simp only [writeSide, writesOf, List.filter_append]
    rw [← writesOf, ← writesOf, writesOf_readData did, List.append_nil, same]
  · rfl

/-- A read request leaves the handshake of the data channel alone. -/
theorem readRequest_sends
    (ran : next.readRequest = some after) :
    (after.bus.rvalid = .one ∧ after.bus.rready = .one) ↔
      next.bus.SendsData := by
  rcases readRequest_cases ran with
    ⟨_, latch, served, bus', rfl, did, rfl⟩ | ⟨_, rfl⟩
  · have same := readData_keeps did
    rw [same]
    exact Iff.rfl
  · exact Iff.rfl

theorem readRequest_setting
    (ran : next.readRequest = some after) :
    after.setting = next.setting := by
  rcases readRequest_cases ran with
    ⟨_, latch, served, bus', rfl, did, rfl⟩ | ⟨_, rfl⟩
  · have same := readData_keeps did
    rw [same]
    rfl
  · rfl

theorem writeAddress_calls (next : Next User) :
    next.writeAddress.calls = next.calls := by
  rw [writeAddress]
  split
  · rfl
  · split <;> rfl

/-- The signals are those at the edge until a read changes the data. -/
theorem writeAddress_signals (next : Next User) :
    next.writeAddress.bus.toAxi4Signals = next.bus.toAxi4Signals := by
  rw [writeAddress]
  split
  · rfl
  · split <;> rfl

theorem writeBeat_signals
    (ran : next.writeBeat = some after) :
    after.bus.toAxi4Signals = next.bus.toAxi4Signals := by
  rcases writeBeat_cases ran with ⟨_, served, _, rfl⟩ | ⟨_, rfl⟩
  · rfl
  · rfl

theorem writeResponse_signals (next : Next User) :
    next.writeResponse.bus.toAxi4Signals = next.bus.toAxi4Signals := by
  rw [writeResponse]
  split <;> rfl

end Next

/-! ## The whole machine -/

section Machine

variable {next : Next User}

theorem slaveMachine_stages
    (ran : slaveMachine bus = some next) :
    ∃ written requested,
      (Next.start bus).writeAddress.writeBeat = some written ∧
      written.writeResponse.readRequest = some requested ∧
      next = requested.readBeat := by
  simp only [slaveMachine, Option.bind_eq_bind, Option.bind_eq_some_iff,
    Option.some.injEq] at ran
  obtain ⟨written, wrote, requested, read, same⟩ := ran
  exact ⟨written, requested, wrote, read, same.symm⟩

theorem slaveMachine_setting
    (ran : slaveMachine bus = some next) :
    next.setting = ⟨bus.device, bus.widths, bus.edges⟩ := by
  obtain ⟨written, requested, wrote, read, rfl⟩ := slaveMachine_stages ran
  rw [Next.readBeat_setting, Next.readRequest_setting read,
    Next.writeResponse_setting, Next.writeBeat_setting wrote,
    Next.writeAddress_setting, Next.start_setting]

/-- The machine runs through if neither half fails an assertion. -/
theorem slaveMachine_isSome
    (device : bus.device = some dev)
    (writes : bus.AcceptsData →
      dev.AllowsWrite bus.widths
        (Next.start bus).writeAddress.bus.slave.waddr
        (Next.start bus).writeAddress.bus.slave.wsize)
    (reads : bus.ar.valid = .one → bus.arready ≠ .zero →
      dev.AllowsRead bus.widths bus.readSize) :
    ∃ next, slaveMachine bus = some next := by
  obtain ⟨written, wrote⟩ : ∃ written,
      (Next.start bus).writeAddress.writeBeat = some written := by
    have setting := Next.writeAddress_setting (Next.start bus)
    have signals := Next.writeAddress_signals (Next.start bus)
    simp only [Next.setting, Setting.mk.injEq] at setting
    obtain ⟨sameDevice, sameWidths, _⟩ := setting
    refine Next.writeBeat_isSome (sameDevice.trans device) fun accepts => ?_
    rw [signals] at accepts
    rw [sameWidths]
    exact writes accepts
  have setting : written.writeResponse.setting =
      ⟨bus.device, bus.widths, bus.edges⟩ := by
    rw [Next.writeResponse_setting, Next.writeBeat_setting wrote,
      Next.writeAddress_setting, Next.start_setting]
  have signals : written.writeResponse.bus.toAxi4Signals =
      bus.toAxi4Signals := by
    rw [Next.writeResponse_signals, Next.writeBeat_signals wrote,
      Next.writeAddress_signals]
    rfl
  simp only [Next.setting, Setting.mk.injEq] at setting
  obtain ⟨sameDevice, sameWidths, _⟩ := setting
  obtain ⟨requested, read⟩ : ∃ requested,
      written.writeResponse.readRequest = some requested := by
    refine Next.readRequest_isSome (sameDevice.trans device) ?_
    rw [signals, sameWidths]
    exact reads
  refine ⟨requested.readBeat, ?_⟩
  simp only [slaveMachine, wrote, read, Option.bind_eq_bind,
    Option.bind_some]

/-- The write side when no response is on its way out. -/
def WriteSide.sendResponse
    (side : WriteSide)
    (signals : Axi4Signals) : WriteSide :=
  if signals.SendsResponse then
    { side with bvalid := .zero, bresp0 := .x, bresp1 := .x }
  else
    side

@[simp]
theorem WriteSide.sendResponse_wready
    (side : WriteSide)
    (signals : Axi4Signals) :
    (side.sendResponse signals).wready = side.wready := by
  rw [sendResponse]
  split <;> rfl

@[simp]
theorem WriteSide.sendResponse_waddr
    (side : WriteSide)
    (signals : Axi4Signals) :
    (side.sendResponse signals).waddr = side.waddr := by
  rw [sendResponse]
  split <;> rfl

@[simp]
theorem WriteSide.sendResponse_wsize
    (side : WriteSide)
    (signals : Axi4Signals) :
    (side.sendResponse signals).wsize = side.wsize := by
  rw [sendResponse]
  split <;> rfl

@[simp]
theorem WriteSide.sendResponse_calls
    (side : WriteSide)
    (signals : Axi4Signals) :
    (side.sendResponse signals).calls = side.calls := by
  rw [sendResponse]
  split <;> rfl

theorem slaveMachine_writeSide
    (ran : slaveMachine bus = some next) :
    ∃ written, (Next.start bus).writeAddress.writeBeat = some written ∧
      next.writeSide = written.writeSide.sendResponse bus.toAxi4Signals := by
  obtain ⟨written, requested, wrote, read, rfl⟩ := slaveMachine_stages ran
  refine ⟨written, wrote, ?_⟩
  have same : written.bus.toAxi4Signals = bus.toAxi4Signals := by
    rw [Next.writeBeat_signals wrote, Next.writeAddress_signals]
    rfl
  rw [Next.readBeat_writeSide, Next.readRequest_writeSide read,
    WriteSide.sendResponse, ← same, Next.writeResponse]
  split
  · rename_i sends
    exact (if_pos sends).symm
  · rename_i sends
    exact (if_neg sends).symm

/-- The read side after the read data channel. -/
def ReadSide.sendData
    (side : ReadSide)
    (signals : Axi4Signals) : ReadSide :=
  if signals.SendsData then
    { side with rvalid := .zero, arready := .one }
  else
    side

@[simp]
theorem ReadSide.sendData_calls
    (side : ReadSide)
    (signals : Axi4Signals) :
    (side.sendData signals).calls = side.calls := by
  rw [sendData]
  split <;> rfl

/-- The read side comes from the request and then from the data channel. -/
theorem slaveMachine_readSide
    (ran : slaveMachine bus = some next) :
    ∃ before requested : Next User,
      before.readSide = (Next.start bus).readSide ∧
      before.setting = ⟨bus.device, bus.widths, bus.edges⟩ ∧
      before.bus.toAxi4Signals = bus.toAxi4Signals ∧
      before.readRequest = some requested ∧
      next.readSide = requested.readSide.sendData bus.toAxi4Signals := by
  obtain ⟨written, requested, wrote, read, rfl⟩ := slaveMachine_stages ran
  have signals : written.writeResponse.bus.toAxi4Signals =
      bus.toAxi4Signals := by
    rw [Next.writeResponse_signals, Next.writeBeat_signals wrote,
      Next.writeAddress_signals]
    rfl
  refine ⟨written.writeResponse, requested, ?_, ?_, signals, read, ?_⟩
  · rw [Next.writeResponse_readSide, Next.writeBeat_readSide wrote,
      Next.writeAddress_readSide]
  · rw [Next.writeResponse_setting, Next.writeBeat_setting wrote,
      Next.writeAddress_setting, Next.start_setting]
  · have same : (requested.bus.rvalid = .one ∧ requested.bus.rready = .one) ↔
        bus.SendsData := by
      rw [← signals]
      exact Next.readRequest_sends read
    rw [Next.readBeat, ReadSide.sendData]
    by_cases sends : bus.SendsData
    · rw [if_pos (same.mpr sends), if_pos sends]
      rfl
    · rw [if_neg (mt same.mp sends), if_neg sends]

end Machine

end

end Simbus.Axi4
