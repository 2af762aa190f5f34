import Simbus.Axi4.Session
import Simbus.Axi4.ReadAccess
import Simbus.Axi4.BlockedWrite
import Simbus.Axi4.Lanes

/-!
# What comes of an access

Every access takes the bus from rest to rest or is never done.  If its word
lies on the bus, the slave makes the one callback that the access asks for, or
none if it has no branch for it.
-/

namespace Simbus.Axi4

open FourValued Clocked

section

variable {User Device : Type}

section Settles

variable {server : Widths}
variable {dev : SlaveDevice Device}
variable {master : SimbusAxi4 User}
variable {slave : SimbusAxi4 Device}
variable {mayHang : Prop}
variable {width : Nat}

/-- What a word that reaches as far as ARVALID puts there. -/
theorem driveWrite_arvalid
    {clearFrom size : Nat}
    {addr : BitVec 64}
    {prot : BitVec 32}
    {data : BitVec width}
    (rests : MasterRests master)
    (some : 8 ≤ master.widths.dataWidth)
    (small : master.widths.dataWidth ≤ 64)
    (keeps : ∀ idx, idx < width →
      dataPref master.widths addr * 8 + idx = 73 →
      data.getLsbD idx = false) :
    (master.driveWrite clearFrom size addr prot data).ar.valid = .zero := by
  have pref : dataPref master.widths addr < master.widths.dataWidth / 8 :=
    Nat.mod_lt _ (by omega)
  have notCleared : ¬ (dataPref master.widths addr * 8 + clearFrom ≤ 73 ∧
      73 < master.widths.dataWidth) := by omega
  have notBefore : ¬ 73 < dataPref master.widths addr * 8 := by omega
  simp only [SimbusAxi4.driveWrite, placeWord, notCleared, notBefore,
    ↓reduceIte]
  split
  · rename_i within
    rw [bitsOf, keeps (73 - dataPref master.widths addr * 8) (by omega)
      (by omega)]
    rfl
  · exact rests.arvalid

/-- What has come of a write. -/
structure WriteDone
    (server : Widths)
    (dev : SlaveDevice Device)
    (clearFrom size : Nat)
    (addr : BitVec 64)
    (prot : BitVec 32)
    (data : BitVec width)
    (master : SimbusAxi4 User)
    (slave : SimbusAxi4 Device)
    (beat : SimbusAxi4 Device)
    (served : Served Device)
    (resp : Resp)
    (master' : SimbusAxi4 User)
    (slave' : SimbusAxi4 Device) : Prop where
  narrow : master.widths.addrWidth ≤ 64
  wide : master.widths.widWidth ≠ 1
  isBeat : WriteBeat dev
    (master.driveWrite clearFrom size addr prot data) slave beat
  serves : writeData beat = some served
  resp : resp = served.resp.seen
  after : AfterAccess server dev master slave served master' slave'

/-- The part that the writes have in common. -/
theorem settles_writeWord
    (clearFrom size : Nat)
    (addr : BitVec 64)
    (prot : BitVec 32)
    (data : BitVec width)
    (rests : BothRest server dev master slave)
    (keeps : (master.driveWrite clearFrom size addr prot data).ar.valid =
      .zero)
    (narrow : ¬ mayHang → master.widths.addrWidth ≤ 64)
    (wide : ¬ mayHang → master.widths.widWidth ≠ 1)
    (answers : ∀ beat, ¬ mayHang →
      WriteBeat dev (master.driveWrite clearFrom size addr prot data) slave
        beat →
      writeData beat ≠ none) :
    (slaveMeeting server).Settles mayHang
      ((writeWord clearFrom size addr prot data).start master) slave
      fun resp master' slave' => ∃ beat served,
        WriteDone server dev clearFrom size addr prot data master slave beat
          served resp master' slave' := by
  refine .assert (fun no => decide_eq_true (narrow no)) fun isNarrow => ?_
  have quiet := rests.masterRests
  have drives : MasterDrives
      (master.driveWrite clearFrom size addr prot data)
      .one .one .one .zero .zero :=
    { aclk := quiet.aclk
      awvalid := rfl
      wvalid := rfl
      bready := rfl
      arvalid := keeps
      rready := quiet.rready }
  have compatible : Compatible server
      (master.driveWrite clearFrom size addr prot data).widths
      slave.widths :=
    rests.compatible
  rw [Program.start_bind, Program.start_modifyState, Behavior.finish_bind]
  by_cases one : master.widths.widWidth = 1
  · have may : mayHang := Classical.byContradiction fun no => wide no one
    have low : LowBid slave :=
      ⟨rests.compatible.slaveWid.trans (rests.compatible.wid.symm.trans one),
        rests.slaveRests.bid⟩
    exact .inr ⟨may, write_blocked drives.aclk one drives.awvalid low⟩
  · obtain ⟨beat, isBeat, settles⟩ :=
      settles_waitForResp mayHang compatible one rests.running drives
        rests.slaveRests
    refine (settles fun no => answers beat no isBeat).weaken ?_
    rintro resp master' slave' ⟨served, serves, isResp, after⟩
    exact ⟨beat, served,
      { narrow := of_decide_eq_true isNarrow
        wide := one
        isBeat := isBeat
        serves := serves
        resp := isResp
        after := { after with } }⟩

/-- What has come of a read. -/
structure ReadDone
    (server : Widths)
    (dev : SlaveDevice Device)
    (size : Nat)
    (addr : BitVec 64)
    (prot : BitVec 32)
    (master : SimbusAxi4 User)
    (slave : SimbusAxi4 Device)
    (beat : SimbusAxi4 Device)
    (served : Served Device)
    (rdata : Bits)
    (result : Resp × BitVec width)
    (master' : SimbusAxi4 User)
    (slave' : SimbusAxi4 Device) : Prop where
  isBeat : ReadBeat dev (master.driveRead size addr prot) slave beat
  serves : ∃ after, readData beat = some (served, after) ∧
    after.rdata = rdata
  resp : result.1 = served.resp.seen
  data : ∃ bits : Bits,
    (∀ idx, idx < master.widths.dataWidth → idx < 64 →
      bits idx = rdata idx) ∧
    result.2 = takeWord width fun idx =>
      bits (dataPref master.widths addr * 8 + idx)
  after : AfterAccess server dev master slave served master' slave'

/-- The part that the reads have in common. -/
theorem settles_readWord
    (size : Nat)
    (addr : BitVec 64)
    (prot : BitVec 32)
    (rests : BothRest server dev master slave)
    (answers : ∀ beat, ¬ mayHang →
      ReadBeat dev (master.driveRead size addr prot) slave beat →
      readData beat ≠ none) :
    (slaveMeeting server).Settles mayHang
      ((readWord width size addr prot).start master) slave
      fun result master' slave' => ∃ beat served rdata,
        ReadDone server dev size addr prot master slave beat served rdata
          result master' slave' := by
  have quiet := rests.masterRests
  have drives : MasterDrives (master.driveRead size addr prot)
      .zero .zero .zero .one .one :=
    { aclk := quiet.aclk
      awvalid := quiet.awvalid
      wvalid := quiet.wvalid
      bready := quiet.bready
      arvalid := rfl
      rready := rfl }
  have compatible : Compatible server
      (master.driveRead size addr prot).widths slave.widths :=
    rests.compatible
  simp only [readWord, Program.start_bind, Program.start_getState,
    Program.start_modifyState, Behavior.finish_bind]
  obtain ⟨beat, isBeat, settles⟩ :=
    settles_readLoop mayHang width compatible rests.running drives
      rests.slaveRests (dataPref master.widths addr)
  refine (settles fun no => answers beat no isBeat).weaken ?_
  rintro result master' slave'
    ⟨served, after, bits, serves, isResp, same, isData, afterAccess⟩
  exact ⟨beat, served, after.rdata,
    { isBeat := isBeat
      serves := ⟨after, serves, rfl⟩
      resp := isResp
      data := ⟨bits, same, isData⟩
      after := { afterAccess with } }⟩

end Settles

/-! ## What is called -/

section Calls

variable {server : Widths}
variable {dev : SlaveDevice Device}
variable {master master' : SimbusAxi4 User}
variable {slave slave' beat : SimbusAxi4 Device}
variable {served : Served Device}
variable {width clearFrom size : Nat}
variable {addr : BitVec 64}
variable {prot : BitVec 32}

theorem useWid_ofNat
    (small : size < 8) :
    useWid (BitVec.ofNat 8 size) = 8 * 2 ^ size := by
  rw [useWid, BitVec.toNat_ofNat, Nat.mod_eq_of_lt (by omega)]

/-- The latched size of a write. -/
theorem WriteBeat.latchedSize
    {data : BitVec width}
    (isBeat : WriteBeat dev
      (master.driveWrite clearFrom size addr prot data) slave beat)
    (small : size < 8) :
    useWid beat.slave.wsize = 8 * 2 ^ size := by
  rw [isBeat.wsize]
  exact (congrArg useWid (decode_size small _)).trans (useWid_ofNat small)

/-- The latched size and address of a write. -/
theorem WriteBeat.latched
    {data : BitVec width}
    (isBeat : WriteBeat dev
      (master.driveWrite clearFrom size addr prot data) slave beat)
    (compatible : Compatible server master.widths slave.widths)
    (small : size < 8)
    (inRange : addr.toNat < 2 ^ master.widths.addrWidth) :
    useWid beat.slave.wsize = 8 * 2 ^ size ∧ beat.slave.waddr = addr := by
  have addrWidth : slave.widths.addrWidth = master.widths.addrWidth :=
    compatible.slaveAddr.trans compatible.addr.symm
  constructor
  · exact isBeat.latchedSize small
  · rw [isBeat.waddr, addrWidth]
    apply decode_addr
    · intro idx inside
      exact if_pos inside
    · exact inRange

/-- The callback of a lane, with what the master has sent. -/
theorem WriteBeat.lane
    {data : BitVec width}
    {select : SlaveDevice Device → Option (WriteFun Device width)}
    (isBeat : WriteBeat dev
      (master.driveWrite clearFrom size addr prot data) slave beat)
    (compatible : Compatible server master.widths slave.widths)
    (small : size < 8)
    (carries : master.widths.Carries width addr)
    (whole : width ≤ clearFrom)
    (serves : writeLane width select beat = some served) :
    served.calls = [⟨.write, width, addr, 0, data, served.resp⟩] := by
  obtain ⟨_, isAddr⟩ := isBeat.latched compatible small carries.inRange
  simp only [writeLane, Option.bind_eq_bind, Option.bind_eq_some_iff,
    Option.some.injEq] at serves
  obtain ⟨device, _, callback, _, rfl⟩ := serves
  have dataWidth : beat.widths.dataWidth = master.widths.dataWidth := by
    rw [isBeat.widths]
    exact compatible.slaveData.trans compatible.data.symm
  have offset : bitOffset beat.widths addr =
      dataPref master.widths addr * 8 := by
    rw [bitOffset, dataPref, dataWidth]
  have word : (bitsToUint width width fun idx =>
      beat.fromWdata (bitOffset beat.widths addr + idx)) = data := by
    apply bitsToUint_bitsOf
    intro idx inside
    have fits := carries.fits
    have small := carries.small
    have inWord : dataPref master.widths addr * 8 + idx <
        master.widths.dataWidth := by omega
    have inArray : dataPref master.widths addr * 8 + idx < 64 := by omega
    have sent : (master.driveWrite clearFrom size addr prot data).wdata
        (dataPref master.widths addr * 8 + idx) = bitsOf data idx :=
      placeWord_word inside whole
    rw [offset, SimbusAxi4.fromWdata, if_pos inArray, ← sent]
    exact isBeat.wdata _ inWord
  simp only [isAddr, isBeat.wprot, word]
  rfl

/-- A lane has one callback. -/
theorem writeLane_length
    {select : SlaveDevice Device → Option (WriteFun Device width)}
    (serves : writeLane width select beat = some served) :
    served.calls.length = 1 := by
  simp only [writeLane, Option.bind_eq_bind, Option.bind_eq_some_iff,
    Option.some.injEq] at serves
  obtain ⟨device, _, callback, _, rfl⟩ := serves
  rfl

/-- A write that has been served has had its assertions checked. -/
theorem writeData_checks
    (serves : writeData beat = some served) :
    useWid beat.slave.wsize ≤ beat.widths.dataWidth ∧
      beat.slave.waddr.toNat % (useWid beat.slave.wsize / 8) = 0 := by
  simp only [writeData, Option.ite_none_right_eq_some] at serves
  exact serves.1

theorem writeData_32
    (isWide : useWid beat.slave.wsize = 32)
    (serves : writeData beat = some served) :
    writeLane 32 SlaveDevice.write32 beat = some served := by
  have checks := writeData_checks serves
  rw [isWide] at checks
  simpa [writeData, isWide, checks] using serves

theorem writeData_8
    (isWide : useWid beat.slave.wsize = 8)
    (serves : writeData beat = some served) :
    writeLane 8 SlaveDevice.write8 beat = some served := by
  have checks := writeData_checks serves
  rw [isWide] at checks
  simpa [writeData, isWide, checks] using serves

theorem writeData_other
    (not32 : useWid beat.slave.wsize ≠ 32)
    (not8 : useWid beat.slave.wsize ≠ 8)
    (serves : writeData beat = some served) :
    served.calls = [] := by
  have checks := writeData_checks serves
  simp only [writeData, checks, not32, not8, and_self, ↓reduceIte,
    Option.some.injEq] at serves
  rw [← serves]

/-- The latched size of a read. -/
theorem ReadBeat.latchedSize
    (isBeat : ReadBeat dev (master.driveRead size addr prot) slave beat)
    (small : size < 8) :
    useWid beat.slave.rsize = 8 * 2 ^ size := by
  rw [isBeat.rsize]
  exact (congrArg useWid (decode_size small _)).trans (useWid_ofNat small)

/-- The latched size and address of a read. -/
theorem ReadBeat.latched
    (isBeat : ReadBeat dev (master.driveRead size addr prot) slave beat)
    (compatible : Compatible server master.widths slave.widths)
    (small : size < 8)
    (inRange : addr.toNat < 2 ^ master.widths.addrWidth) :
    useWid beat.slave.rsize = 8 * 2 ^ size ∧ beat.slave.raddr = addr := by
  have addrWidth : slave.widths.addrWidth = master.widths.addrWidth :=
    compatible.slaveAddr.trans compatible.addr.symm
  constructor
  · exact isBeat.latchedSize small
  · rw [isBeat.raddr, addrWidth]
    apply decode_addr
    · intro idx inside
      exact if_pos inside
    · exact inRange

/-- The callback of a lane, with what the master gets. -/
theorem ReadBeat.lane
    {select : SlaveDevice Device → Option (ReadFun Device width)}
    {after : SimbusAxi4 Device}
    {bits : Bits}
    (isBeat : ReadBeat dev (master.driveRead size addr prot) slave beat)
    (compatible : Compatible server master.widths slave.widths)
    (small : size < 8)
    (carries : master.widths.Carries width addr)
    (serves : readLane width select beat = some (served, after))
    (same : ∀ idx, idx < master.widths.dataWidth → idx < 64 →
      bits idx = after.rdata idx) :
    served.calls =
      [⟨.read, width, addr, 0,
        takeWord width fun idx =>
          bits (dataPref master.widths addr * 8 + idx),
        served.resp⟩] := by
  obtain ⟨_, isAddr⟩ := isBeat.latched compatible small carries.inRange
  simp only [readLane, Option.bind_eq_bind, Option.bind_eq_some_iff,
    Option.some.injEq, Prod.mk.injEq] at serves
  obtain ⟨device, _, callback, _, rfl, rfl⟩ := serves
  have dataWidth : beat.widths.dataWidth = master.widths.dataWidth := by
    rw [isBeat.widths]
    exact compatible.slaveData.trans compatible.data.symm
  have offset : bitOffset beat.widths addr =
      dataPref master.widths addr * 8 := by
    rw [bitOffset, dataPref, dataWidth]
  have word : (takeWord width fun idx =>
        bits (dataPref master.widths addr * 8 + idx)) =
      (callback addr ((0 : BitVec 8).setWidth 32) beat.user).2.1 := by
    apply takeWord_bitsOf
    intro idx inside
    have fits := carries.fits
    have small := carries.small
    have inWord : dataPref master.widths addr * 8 + idx <
        master.widths.dataWidth := by omega
    have inArray : dataPref master.widths addr * 8 + idx < 64 := by omega
    rw [same _ inWord inArray]
    simp only [isAddr, isBeat.rprot, offset]
    exact putWord_word inside
  simp only [isAddr, isBeat.rprot, word]
  rfl

/-- A read that has been served has had its assertion checked. -/
theorem readData_checks
    {after : SimbusAxi4 Device}
    (serves : readData beat = some (served, after)) :
    useWid beat.slave.rsize ≤ beat.widths.dataWidth := by
  simp only [readData, Option.ite_none_right_eq_some] at serves
  exact serves.1

theorem readData_32
    {after : SimbusAxi4 Device}
    (isWide : useWid beat.slave.rsize = 32)
    (serves : readData beat = some (served, after)) :
    readLane 32 SlaveDevice.read32 beat = some (served, after) := by
  have checks := readData_checks serves
  rw [isWide] at checks
  simpa [readData, isWide, checks] using serves

theorem readData_16
    {after : SimbusAxi4 Device}
    (isWide : useWid beat.slave.rsize = 16)
    (serves : readData beat = some (served, after)) :
    readLane 16 SlaveDevice.read16 beat = some (served, after) := by
  have checks := readData_checks serves
  rw [isWide] at checks
  simpa [readData, isWide, checks] using serves

theorem readLane_length
    {select : SlaveDevice Device → Option (ReadFun Device width)}
    {after : SimbusAxi4 Device}
    (serves : readLane width select beat = some (served, after)) :
    served.calls.length = 1 := by
  simp only [readLane, Option.bind_eq_bind, Option.bind_eq_some_iff,
    Option.some.injEq, Prod.mk.injEq] at serves
  obtain ⟨device, _, callback, _, rfl, _⟩ := serves
  rfl

theorem readData_8
    {after : SimbusAxi4 Device}
    (isWide : useWid beat.slave.rsize = 8)
    (serves : readData beat = some (served, after)) :
    readLane 8 SlaveDevice.read8 beat = some (served, after) := by
  have checks := readData_checks serves
  rw [isWide] at checks
  simpa [readData, isWide, checks] using serves

theorem readData_64
    {after : SimbusAxi4 Device}
    (isWide : useWid beat.slave.rsize = 64)
    (serves : readData beat = some (served, after)) :
    served.calls = [] := by
  have checks := readData_checks serves
  rw [isWide] at checks
  simp [readData, isWide, checks] at serves
  rw [← serves.1]

end Calls

/-! ## From rest to rest -/

/-- `awsize` and `arsize`. -/
def AccessWidth.size : AccessWidth → Nat
  | .w8 => 0
  | .w16 => 1
  | .w32 => 2
  | .w64 => 3

/-- Where the last loop of a write starts. -/
def AccessWidth.clearFrom : AccessWidth → Nat
  | .w8 => 8
  | .w16 => 16
  | .w32 | .w64 => 32

theorem AccessWidth.size_lt (width : AccessWidth) : width.size < 8 := by
  cases width <;> decide

theorem AccessWidth.le_bits (width : AccessWidth) : 8 ≤ width.bits := by
  cases width <;> decide

theorem AccessWidth.two_pow_size (width : AccessWidth) :
    8 * 2 ^ width.size = width.bits := by
  cases width <;> rfl

/-- The slave has served a data beat with its callbacks. -/
def ServedBy
    (dev : SlaveDevice Device)
    (slave : SimbusAxi4 Device)
    (served : Served Device) : Prop :=
  ∃ beat : SimbusAxi4 Device,
    beat.device = some dev ∧ beat.user = slave.user ∧
    (writeData beat = some served ∨
      ∃ after, readData beat = some (served, after))

/-- What has come of an access. -/
structure AccessDone
    (server : Widths)
    (dev : SlaveDevice Device)
    (access : Access)
    (master : SimbusAxi4 User)
    (slave : SimbusAxi4 Device)
    (result : Resp × BitVec access.width.bits)
    (master' : SimbusAxi4 User)
    (slave' : SimbusAxi4 Device) : Prop where
  wide : access.direction = .write → master.widths.widWidth ≠ 1
  data : access.direction = .write → result.2 = access.data
  served : ∃ served : Served Device,
    ServedBy dev slave served ∧
    AfterAccess server dev master slave served master' slave' ∧
    result.1 = served.resp.seen ∧
    (∀ call ∈ served.calls, call.resp = served.resp) ∧
    served.calls.length = (if access.HasBranch then 1 else 0) ∧
    (master.widths.Carries access.width.bits access.addr →
      served.calls =
        if access.HasBranch then [access.call result.2 served.resp] else [])

section Accesses

variable {server : Widths}
variable {dev : SlaveDevice Device}
variable {master : SimbusAxi4 User}
variable {slave : SimbusAxi4 Device}
variable {mayHang : Prop}
variable {width : AccessWidth}
variable {addr : BitVec 64}
variable {prot : BitVec 32}
variable {data : BitVec width.bits}
variable {beat slave' : SimbusAxi4 Device}
variable {served : Served Device}
variable {resp : Resp}
variable {result : Resp × BitVec width.bits}
variable {master' : SimbusAxi4 User}

/-- The writes differ only in their numbers. -/
def checkedWrite
    (width : AccessWidth)
    (addr : BitVec 64)
    (prot : BitVec 32)
    (data : BitVec width.bits) : MasterCall User Resp := do
  assertFits width.bits addr
  writeWord width.clearFrom width.size addr prot data

theorem write8_eq
    (addr : BitVec 64)
    (prot : BitVec 32)
    (data : BitVec 8) :
    (simbusAxi4Write8 addr prot data : MasterCall User Resp) =
      checkedWrite .w8 addr prot data := by
  apply Program.ext
  intro master
  have aligned : addr.toNat % (AccessWidth.w8.bits / 8) = 0 :=
    Nat.mod_one _
  simp [simbusAxi4Write8, checkedWrite, assertBytes, assertFits, aligned]
  rfl

theorem start_checkedWrite
    (fits : ¬ mayHang → width.bits ≤ master.widths.dataWidth)
    (aligned : ¬ mayHang → addr.toNat % (width.bits / 8) = 0)
    {post : Resp → SimbusAxi4 User → SimbusAxi4 Device → Prop}
    (settles : width.bits ≤ master.widths.dataWidth →
      addr.toNat % (width.bits / 8) = 0 →
      (slaveMeeting server).Settles mayHang
        ((writeWord width.clearFrom width.size addr prot data).start master)
        slave post) :
    (slaveMeeting server).Settles mayHang
      ((checkedWrite width addr prot data).start master) slave post := by
  have asserts : checkedWrite width addr prot data = (do
      Program.assert fun bus : SimbusAxi4 User =>
        decide (width.bits ≤ bus.widths.dataWidth)
      Program.assert fun _ => decide (addr.toNat % (width.bits / 8) = 0)
      writeWord width.clearFrom width.size addr prot data) := by
    rw [checkedWrite, assertFits, bind_assoc]
  rw [asserts]
  refine .assert (fun no => decide_eq_true (fits no)) fun isFit => ?_
  refine .assert (fun no => decide_eq_true (aligned no)) fun isAligned => ?_
  exact settles (of_decide_eq_true isFit) (of_decide_eq_true isAligned)

/-- A write settles. -/
theorem settles_checkedWrite
    (rests : BothRest server dev master slave)
    (small : master.widths.dataWidth ≤ 64)
    (keeps : Access.KeepsArvalid master.widths
      ⟨.write, width, addr, prot, data⟩)
    (answered : ¬ mayHang →
      Access.Answered dev master.widths ⟨.write, width, addr, prot, data⟩) :
    (slaveMeeting server).Settles mayHang
      ((checkedWrite width addr prot data).start master) slave
      fun resp master' slave' => ∃ beat served,
        WriteDone server dev width.clearFrom width.size addr prot data
          master slave beat served resp master' slave' := by
  refine start_checkedWrite (fun no => (answered no).fits)
    (fun no => (answered no).carries.aligned) fun fits aligned => ?_
  have some : 8 ≤ master.widths.dataWidth := width.le_bits.trans fits
  refine settles_writeWord _ _ addr prot data rests
    (driveWrite_arvalid rests.masterRests some small (keeps rfl))
    (fun no => (answered no).carries.narrow)
    (fun no => (answered no).wide rfl) fun beat no isBeat => ?_
  have answer := answered no
  obtain ⟨isWide, isAddr⟩ := isBeat.latched rests.compatible width.size_lt
    answer.carries.inRange
  rw [width.two_pow_size] at isWide
  have allows : dev.AllowsWrite beat.widths beat.slave.waddr
      beat.slave.wsize :=
    { fits := by
        rw [isWide, isBeat.widths, rests.compatible.slaveData,
          ← rests.compatible.data]
        exact fits
      aligned := by
        rw [isWide, isAddr]
        exact aligned
      write32 := fun _ => answer.complete.write32
      write8 := fun _ => answer.complete.write8 }
  obtain ⟨served, serves⟩ := writeData_isSome isBeat.device allows
  rw [serves]
  nofun

/-- The number of calls for a write, wherever it goes. -/
theorem WriteDone.length_calls
    (done : WriteDone server dev width.clearFrom width.size addr prot data
      master slave beat served resp master' slave') :
    served.calls.length =
      if Access.HasBranch ⟨.write, width, addr, prot, data⟩ then 1 else 0 := by
  have isWide := done.isBeat.latchedSize width.size_lt
  rw [width.two_pow_size] at isWide
  cases width with
  | w8 =>
      exact writeLane_length (writeData_8 isWide done.serves)
  | w32 =>
      exact writeLane_length (writeData_32 isWide done.serves)
  | w16 =>
      exact congrArg List.length (writeData_other (by rw [isWide]; decide)
        (by rw [isWide]; decide) done.serves)
  | w64 =>
      exact congrArg List.length (writeData_other (by rw [isWide]; decide)
        (by rw [isWide]; decide) done.serves)

/-- The calls for a write. -/
theorem WriteDone.calls
    (done : WriteDone server dev width.clearFrom width.size addr prot data
      master slave beat served resp master' slave')
    (compatible : Compatible server master.widths slave.widths)
    (carries : master.widths.Carries width.bits addr) :
    served.calls =
      if Access.HasBranch ⟨.write, width, addr, prot, data⟩ then
        [Access.call ⟨.write, width, addr, prot, data⟩ data served.resp]
      else [] := by
  obtain ⟨isWide, _⟩ := done.isBeat.latched compatible width.size_lt
    carries.inRange
  rw [width.two_pow_size] at isWide
  cases width with
  | w8 =>
      exact done.isBeat.lane compatible (by decide) carries (by decide)
        (writeData_8 isWide done.serves)
  | w32 =>
      exact done.isBeat.lane compatible (by decide) carries (by decide)
        (writeData_32 isWide done.serves)
  | w16 =>
      exact writeData_other (by rw [isWide]; decide)
        (by rw [isWide]; decide) done.serves
  | w64 =>
      exact writeData_other (by rw [isWide]; decide)
        (by rw [isWide]; decide) done.serves

/-- Every callback that is made for a write answers with its response. -/
theorem writeData_resp
    {beat : SimbusAxi4 Device}
    (serves : writeData beat = some served) :
    ∀ call ∈ served.calls, call.resp = served.resp := by
  rcases writeData_serves serves with ⟨none, _⟩ | ⟨call, isCall⟩
  · rw [none]
    nofun
  · rw [isCall.only]
    intro other member
    rw [List.mem_singleton.mp member, isCall.resp]

/-- A write, with the data that it has been given. -/
theorem settles_writeAccess
    (rests : BothRest server dev master slave)
    (small : master.widths.dataWidth ≤ 64)
    (keeps : Access.KeepsArvalid master.widths
      ⟨.write, width, addr, prot, data⟩)
    (answered : ¬ mayHang →
      Access.Answered dev master.widths ⟨.write, width, addr, prot, data⟩) :
    (slaveMeeting server).Settles mayHang
      ((writeAccess (checkedWrite width) addr prot data).start master) slave
      (AccessDone server dev ⟨.write, width, addr, prot, data⟩ master
        slave) := by
  rw [writeAccess, Program.start_bind]
  apply (settles_checkedWrite rests small keeps answered).bind
  rintro resp master' slave' ⟨beat, served, done⟩
  refine .finish ?_
  exact
    { wide := fun _ => done.wide
      data := fun _ => rfl
      served := ⟨served,
        ⟨beat, done.isBeat.device, done.isBeat.user, .inl done.serves⟩,
        done.after, done.resp, writeData_resp done.serves, done.length_calls,
        fun carries => done.calls rests.compatible carries⟩ }

theorem settles_write8
    {data : BitVec 8}
    (rests : BothRest server dev master slave)
    (small : master.widths.dataWidth ≤ 64)
    (keeps : Access.KeepsArvalid master.widths
      ⟨.write, .w8, addr, prot, data⟩)
    (answered : ¬ mayHang →
      Access.Answered dev master.widths ⟨.write, .w8, addr, prot, data⟩) :
    (slaveMeeting server).Settles mayHang
      ((writeAccess simbusAxi4Write8 addr prot data).start master) slave
      (AccessDone server dev ⟨.write, .w8, addr, prot, data⟩ master
        slave) := by
  have same : writeAccess simbusAxi4Write8 addr prot data =
      (writeAccess (checkedWrite .w8) addr prot data : MasterCall User _) := by
    simp only [writeAccess, write8_eq]
    rfl
  rw [same]
  exact settles_writeAccess rests small keeps answered

/-! ### Reads -/

/-- The reads of more than a byte differ only in their numbers. -/
def checkedRead
    (width : AccessWidth)
    (addr : BitVec 64)
    (prot : BitVec 32) : MasterCall User (Resp × BitVec width.bits) := do
  assertReads width.bits addr
  readWord width.bits width.size addr prot

/-- The number of calls for a read, wherever it comes from. -/
theorem ReadDone.length_calls
    {rdata : Bits}
    (done : ReadDone server dev width.size addr prot master slave beat served
      rdata result master' slave') :
    served.calls.length =
      if Access.HasBranch ⟨.read, width, addr, prot, data⟩ then 1 else 0 := by
  have isWide := done.isBeat.latchedSize width.size_lt
  rw [width.two_pow_size] at isWide
  obtain ⟨after, serves, _⟩ := done.serves
  cases width with
  | w8 =>
      exact readLane_length (readData_8 isWide serves)
  | w16 =>
      exact readLane_length (readData_16 isWide serves)
  | w32 =>
      exact readLane_length (readData_32 isWide serves)
  | w64 =>
      exact congrArg List.length (readData_64 isWide serves)

/-- The calls for a read. -/
theorem ReadDone.calls
    {rdata : Bits}
    (done : ReadDone server dev width.size addr prot master slave beat served
      rdata result master' slave')
    (compatible : Compatible server master.widths slave.widths)
    (carries : master.widths.Carries width.bits addr) :
    served.calls =
      if Access.HasBranch ⟨.read, width, addr, prot, data⟩ then
        [Access.call ⟨.read, width, addr, prot, data⟩ result.2 served.resp]
      else [] := by
  obtain ⟨isWide, _⟩ := done.isBeat.latched compatible width.size_lt
    carries.inRange
  rw [width.two_pow_size] at isWide
  obtain ⟨after, serves, rfl⟩ := done.serves
  obtain ⟨bits, same, isData⟩ := done.data
  rw [isData]
  cases width with
  | w8 =>
      exact done.isBeat.lane compatible (by decide) carries
        (readData_8 isWide serves) same
  | w16 =>
      exact done.isBeat.lane compatible (by decide) carries
        (readData_16 isWide serves) same
  | w32 =>
      exact done.isBeat.lane compatible (by decide) carries
        (readData_32 isWide serves) same
  | w64 =>
      exact readData_64 isWide serves

/-- Every callback that is made for a read answers with its response. -/
theorem readData_resp
    {beat after : SimbusAxi4 Device}
    (serves : readData beat = some (served, after)) :
    ∀ call ∈ served.calls, call.resp = served.resp := by
  rcases readData_serves serves with ⟨none, _⟩ | ⟨call, isCall, _⟩
  · rw [none]
    nofun
  · rw [isCall.only]
    intro other member
    rw [List.mem_singleton.mp member, isCall.resp]

/-- A read settles after its assertions. -/
theorem settles_readAccess
    (rests : BothRest server dev master slave)
    (answered : ¬ mayHang →
      Access.Answered dev master.widths ⟨.read, width, addr, prot, data⟩) :
    (slaveMeeting server).Settles mayHang
      ((readWord width.bits width.size addr prot).start master) slave
      (AccessDone server dev ⟨.read, width, addr, prot, data⟩ master
        slave) := by
  have settles : (slaveMeeting server).Settles mayHang
      ((readWord width.bits width.size addr prot).start master) slave
      fun result master' slave' => ∃ beat served rdata,
        ReadDone server dev width.size addr prot master slave beat served
          rdata result master' slave' := by
    refine settles_readWord width.size addr prot rests fun beat no isBeat => ?_
    have answer := answered no
    obtain ⟨isWide, _⟩ := isBeat.latched rests.compatible width.size_lt
      answer.carries.inRange
    rw [width.two_pow_size] at isWide
    have allows : dev.AllowsRead beat.widths beat.slave.rsize :=
      { fits := by
          rw [isWide, isBeat.widths, rests.compatible.slaveData,
            ← rests.compatible.data]
          exact answer.fits
        read32 := fun _ => answer.complete.read32
        read16 := fun _ => answer.complete.read16
        read8 := fun _ => answer.complete.read8 }
    obtain ⟨served, after, serves⟩ := readData_isSome isBeat.device allows
    rw [serves]
    nofun
  refine settles.weaken ?_
  rintro result master' slave' ⟨beat, served, rdata, done⟩
  obtain ⟨after, serves, _⟩ := done.serves
  exact
    { wide := nofun
      data := nofun
      served := ⟨served,
        ⟨beat, done.isBeat.device, done.isBeat.user, .inr ⟨after, serves⟩⟩,
        done.after, done.resp, readData_resp serves, done.length_calls,
        fun carries => done.calls rests.compatible carries⟩ }

theorem settles_checkedRead
    (rests : BothRest server dev master slave)
    (answered : ¬ mayHang →
      Access.Answered dev master.widths ⟨.read, width, addr, prot, data⟩) :
    (slaveMeeting server).Settles mayHang
      ((checkedRead width addr prot).start master) slave
      (AccessDone server dev ⟨.read, width, addr, prot, data⟩ master
        slave) := by
  have asserts : checkedRead width addr prot = (do
      Program.assert fun bus : SimbusAxi4 User =>
        decide (bus.widths.dataWidth / 8 ≠ 0)
      Program.assert fun bus => decide (width.bits ≤ bus.widths.dataWidth)
      Program.assert fun bus => decide (bus.widths.addrWidth ≤ 64)
      Program.assert fun _ => decide (addr.toNat % (width.bits / 8) = 0)
      readWord width.bits width.size addr prot) := by
    rw [checkedRead, assertReads, assertBytes, bind_assoc, bind_assoc,
      bind_assoc]
  rw [asserts]
  refine .assert (fun no => decide_eq_true ?_) fun _ => ?_
  · have bytes := width.le_bits.trans (answered no).fits
    omega
  refine .assert (fun no => decide_eq_true (answered no).fits) fun _ => ?_
  refine .assert
    (fun no => decide_eq_true (answered no).carries.narrow) fun _ => ?_
  refine .assert
    (fun no => decide_eq_true (answered no).carries.aligned) fun _ => ?_
  exact settles_readAccess rests answered

/-- The read of a byte, whose address may be of any width. -/
def byteRead
    (addr : BitVec 64)
    (prot : BitVec 32) :
    MasterCall User (Resp × BitVec AccessWidth.w8.bits) := do
  Program.assert fun bus => decide (bus.widths.dataWidth / 8 ≠ 0)
  readWord AccessWidth.w8.bits AccessWidth.w8.size addr prot

theorem settles_byteRead
    {data : BitVec AccessWidth.w8.bits}
    (rests : BothRest server dev master slave)
    (answered : ¬ mayHang →
      Access.Answered dev master.widths ⟨.read, .w8, addr, prot, data⟩) :
    (slaveMeeting server).Settles mayHang
      ((byteRead addr prot).start master) slave
      (AccessDone server dev ⟨.read, .w8, addr, prot, data⟩ master
        slave) := by
  refine .assert (fun no => decide_eq_true ?_) fun _ => ?_
  · have bytes := AccessWidth.w8.le_bits.trans (answered no).fits
    omega
  · exact settles_readAccess rests answered

/-! ### Any access -/

/-- An access settles. -/
theorem settles_access
    (access : Access)
    (rests : BothRest server dev master slave)
    (small : master.widths.dataWidth ≤ 64)
    (keeps : access.KeepsArvalid master.widths)
    (answered : ¬ mayHang → access.Answered dev master.widths) :
    (slaveMeeting server).Settles mayHang (access.perform.start master) slave
      (AccessDone server dev access master slave) := by
  obtain ⟨direction, width, addr, prot, data⟩ := access
  cases direction with
  | write =>
      cases width with
      | w8 =>
          exact settles_write8 rests small keeps answered
      | w16 =>
          exact settles_writeAccess rests small keeps answered
      | w32 =>
          exact settles_writeAccess rests small keeps answered
      | w64 =>
          exact settles_writeAccess rests small keeps answered
  | read =>
      cases width with
      | w8 =>
          exact settles_byteRead rests answered
      | w16 =>
          exact settles_checkedRead rests answered
      | w32 =>
          exact settles_checkedRead rests answered
      | w64 =>
          exact settles_checkedRead rests answered

end Accesses

end

end Simbus.Axi4
