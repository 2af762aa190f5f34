import Simbus.Axi4.Handshakes

/-!
# Lanes of a write

A write of 8, 16 or 32 bits strobes the lanes of its address and drives its data
there.  A write of 64 bits clears the upper half of its data before it waits.
-/

namespace Simbus.Axi4

open FourValued Clocked

section

variable {User : Type}

/-! ## The word of a write -/

/-- The word is strobed on the lanes of the address, where the data are. -/
structure Access.OnLanes
    (dataWidth : Nat)
    (access : Access)
    (word : Bits × Bits) : Prop where
  inside : access.addr.toNat % (dataWidth / 8) + access.width.bits / 8 ≤
    dataWidth / 8
  strobes : ∀ lane, lane < dataWidth / 8 →
    word.2 lane = Logic4.ofBool
      (access.addr.toNat % (dataWidth / 8) ≤ lane ∧
        lane < access.addr.toNat % (dataWidth / 8) + access.width.bits / 8)
  data : ∀ lane bit, lane < access.width.bits / 8 → bit < 8 →
    word.1 ((access.addr.toNat % (dataWidth / 8) + lane) * 8 + bit) =
      Logic4.ofBool (access.data.getLsbD (lane * 8 + bit))

/-- A power of two is a multiple of every smaller one. -/
theorem AccessWidth.bytes_dvd
    (width : AccessWidth)
    {dataWidth : Nat}
    (power : ∃ exponent, dataWidth = 2 ^ exponent)
    (fits : width.bits ≤ dataWidth) :
    width.bits / 8 ∣ dataWidth / 8 := by
  have isPower : ∃ exponent, width.bits = 8 * 2 ^ exponent := by
    cases width
    · exact ⟨0, rfl⟩
    · exact ⟨1, rfl⟩
    · exact ⟨2, rfl⟩
    · exact ⟨3, rfl⟩
  obtain ⟨exponent, rfl⟩ := power
  obtain ⟨low, isBits⟩ := isPower
  have bits : width.bits = 2 ^ (3 + low) := by
    rw [isBits, Nat.pow_add]
  have ordered : 3 + low ≤ exponent := by
    rw [bits] at fits
    exact (Nat.pow_le_pow_iff_right (by decide)).mp fits
  obtain ⟨high, rfl⟩ := Nat.exists_eq_add_of_le ordered
  have whole : 2 ^ (3 + low + high) = 8 * 2 ^ (low + high) := by
    rw [Nat.add_assoc, Nat.pow_add]
  rw [isBits, whole, Nat.mul_div_cancel_left _ (by decide),
    Nat.mul_div_cancel_left _ (by decide)]
  exact Nat.pow_dvd_pow 2 (Nat.le_add_right low high)

/-- What a write of up to 32 bits drives is on its lanes. -/
theorem driveWrite_onLanes
    {bus : SimbusAxi4 User}
    {width : AccessWidth}
    {addr : BitVec 64}
    {prot : BitVec 32}
    {data : BitVec width.bits}
    (accepted : Access.Accepted bus.widths ⟨.write, width, addr, prot, data⟩)
    (power : ∃ exponent, bus.widths.dataWidth = 2 ^ exponent)
    (narrow : width ≠ .w64) :
    let driven := bus.driveWrite width.clearFrom width.size addr prot data
    Access.OnLanes bus.widths.dataWidth ⟨.write, width, addr, prot, data⟩
      (driven.wdata, driven.wstrb) := by
  have whole : width.bits ≤ width.clearFrom := by
    cases width
    · decide
    · decide
    · decide
    · exact absurd rfl narrow
  have divides := width.bytes_dvd power accepted.fits
  have some : 0 < bus.widths.dataWidth / 8 :=
    Nat.div_pos (width.le_bits.trans accepted.fits) (by decide)
  constructor
  · exact aligned_fits divides some accepted.aligned
  · intro lane inside
    simp only [SimbusAxi4.driveWrite, inside, if_true, dataPref]
    rfl
  · intro lane bit inLane inByte
    have inWord : lane * 8 + bit < width.bits := by
      simp only at inLane
      omega
    have place : (addr.toNat % (bus.widths.dataWidth / 8) + lane) * 8 + bit =
        dataPref bus.widths addr * 8 + (lane * 8 + bit) := by
      rw [dataPref]
      omega
    simp only [SimbusAxi4.driveWrite]
    rw [place, placeWord_word inWord whole]
    rfl

/-- A write of 64 bits does not drive its upper half. -/
theorem driveWrite_not_onLanes
    {bus : SimbusAxi4 User}
    {addr : BitVec 64}
    {prot : BitVec 32}
    {data : BitVec 64}
    (fits : 64 ≤ bus.widths.dataWidth)
    (small : bus.widths.dataWidth ≤ 64) :
    let driven := bus.driveWrite 32 3 addr prot data
    ¬ Access.OnLanes bus.widths.dataWidth ⟨.write, .w64, addr, prot, data⟩
      (driven.wdata, driven.wstrb) := by
  intro driven onLanes
  have dataWidth : bus.widths.dataWidth = 64 := Nat.le_antisymm small fits
  have inside := onLanes.inside
  have inWord : 4 < AccessWidth.w64.bits / 8 := by decide
  have upper := onLanes.data 4 0 inWord (by decide)
  rw [dataWidth] at inside upper
  have first : addr.toNat % (64 / 8) = 0 := by
    simp only [AccessWidth.bits] at inside
    omega
  have cleared : driven.wdata 32 = .x := by
    simp only [driven, SimbusAxi4.driveWrite, placeWord, dataPref, dataWidth,
      first]
    rfl
  simp only [first] at upper
  rw [cleared] at upper
  cases bit : data.getLsbD 32
  · have isZero : Logic4.x = .zero := upper.trans (congrArg Logic4.ofBool bit)
    cases isZero
  · have isOne : Logic4.x = .one := upper.trans (congrArg Logic4.ofBool bit)
    cases isOne

/-! ## The word at its handshake -/

/-- The words that are transferred are on the lanes of the access. -/
def Access.KeepsLanes (bus : SimbusAxi4 User) (access : Access) : Prop :=
  Meets
    (observer fun seen _ =>
      ∀ word ∈ seen.words, access.OnLanes bus.widths.dataWidth word)
    (fun _ seen _ =>
      ∀ word ∈ seen.words, access.OnLanes bus.widths.dataWidth word)
    (.start bus) (access.perform.start bus)

/-- Only one word is offered, and no other one has been transferred. -/
structure OffersOnly
    (word : Bits × Bits)
    (seen : Observed User)
    (bus : SimbusAxi4 User) : Prop where
  offered : bus.wvalid = .one → (bus.wdata, bus.wstrb) = word
  transferred : ∀ other ∈ seen.words, other = word

section Offers

variable {good : Bits × Bits → Prop}
variable {word : Bits × Bits}

/-- What checks the words that are transferred. -/
abbrev wordObserver
    (User : Type)
    (good : Bits × Bits → Prop) : Monitor (SimbusAxi4 User) MasterReply :=
  observer fun seen _ => ∀ word ∈ seen.words, good word

theorem OffersOnly.after
    {seen : Observed User}
    {bus : SimbusAxi4 User}
    (offers : OffersOnly word seen bus)
    (reply : MasterReply) :
    ∀ other ∈ (seen.after bus reply).words, other = word := by
  intro other member
  cases reply with
  | finish =>
      exact offers.transferred other member
  | «until» aclk text =>
      rw [Observed.after, List.mem_append] at member
      rcases member with before | now
      · exact offers.transferred other before
      · rw [transfers, List.mem_ite_nil_right, List.mem_singleton] at now
        obtain ⟨⟨_, valid, _⟩, rfl⟩ := now
        exact offers.offered valid

theorem readyCommand_offers
    (isGood : good word) :
    Keeps (wordObserver User good) (OffersOnly word) axi4ReadyCommand := by
  apply readyCommand_meets
  · intro seen bus offers other member
    rw [offers.transferred other member]
    exact isGood
  · intro seen bus offers
    exact ⟨offers.offered, offers.after .finish⟩
  · intro seen bus aclk text offers lengths
    have same := sampleMaster_sameOutputs bus aclk lengths
    refine ⟨fun valid => ?_, offers.after (.until aclk text)⟩
    rw [same.wdata, same.wstrb]
    exact offers.offered (same.wvalid.symm.trans valid)

theorem nextPosedge_offers
    (isGood : good word) :
    Keeps (wordObserver User good) (OffersOnly word) axi4NextPosedge := by
  have level : ∀ level, Keeps (wordObserver User good) (OffersOnly word)
      (awaitLevel level) := by
    intro level
    apply Keeps.whileDo
    exact Keeps.bind (readyCommand_offers isGood) fun _ => Keeps.pure ()
  exact Keeps.bind (level .zero) fun _ => level .one

/-- The word is given up after its transfer and not before. -/
theorem OffersOnly.endWriteEdge
    {seen : Observed User}
    {bus : SimbusAxi4 User}
    (offers : OffersOnly word seen bus) :
    OffersOnly word seen bus.endWriteEdge := by
  have beats := endWriteBeats_word bus
  have edge : (bus.endWriteEdge.wvalid, bus.endWriteEdge.wdata,
      bus.endWriteEdge.wstrb) = (bus.endWriteBeats.wvalid,
      bus.endWriteBeats.wdata, bus.endWriteBeats.wstrb) := by
    unfold SimbusAxi4.endWriteEdge
    simp only
    split <;> rfl
  refine ⟨fun valid => ?_, offers.transferred⟩
  rw [← edge] at beats
  split at beats
  · rw [Prod.mk.injEq] at beats
    exact nomatch beats.1.symm.trans valid
  · rw [Prod.mk.injEq] at beats
    rw [beats.2]
    exact offers.offered (beats.1.symm.trans valid)

theorem waitForResp_offers
    (isGood : good word) :
    Keeps (wordObserver User good) (OffersOnly word) waitForResp := by
  apply Keeps.loop
  intro locals seen bus offers
  by_cases goesOn : bus.aw.valid = .one ∨ bus.wvalid = .one ∨ bus.bready = .one
  · rw [start_waitForRespTurn goesOn]
    refine Meets.bind (nextPosedge_offers isGood seen bus offers) ?_
    intro _ later next still
    exact meets_finish.mpr still.endWriteEdge
  · have turn : (waitForRespTurn locals).start bus =
        .finish (.inr locals.1) bus := by
      obtain ⟨respCode, responseTimer⟩ := locals
      simp [waitForRespTurn, goesOn]
    rw [turn]
    exact meets_finish.mpr offers

end Offers

/-! ## An accepted word -/

/-- The texts of a slave that only drives 1 on WREADY. -/
def wreadyOnly (widths : Widths) : SlaveSignal → Text
  | .wready => [.one]
  | signal =>
      List.replicate ((SimbusAxi4.slaveLength widths signal).getD 1) .zero

theorem wreadyOnly_hasLengths (widths : Widths) :
    SimbusAxi4.HasLengths (SimbusAxi4.slaveLength widths)
      (wreadyOnly widths) := by
  intro signal
  cases signal <;> simp [SimbusAxi4.slaveLength, wreadyOnly]

/-- The slave may accept the word at the first edge. -/
theorem waitForResp_accepts
    {Result : Type}
    {good : Bits × Bits → Prop}
    {bus : SimbusAxi4 User}
    {seen : Observed User}
    {post : Post (wordObserver User good) Result}
    {next : Resp → SimbusAxi4 User →
      Behavior (SimbusAxi4 User) MasterReply Result}
    (valid : bus.wvalid = .one)
    (waits : bus.bready = .one)
    (armed : seen.armed = decide (bus.aclk = .zero))
    (meets : Meets (wordObserver User good) post seen
      ((waitForResp.start bus).bind next)) :
    good (bus.wdata, bus.wstrb) := by
  obtain ⟨before, sent, same, isArmed, isGood⟩ :=
    waitForResp_reply waits armed (wreadyOnly_hasLengths bus.widths) nofun meets
  have accepted : transfers (before.armed && decide (Logic4.one = .one))
      sent.wvalid .one (sent.wdata, sent.wstrb) = [(bus.wdata, bus.wstrb)] := by
    rw [isArmed, same.wvalid, same.wdata, same.wstrb, valid]
    rfl
  apply isGood
  rw [Observed.after, List.mem_append]
  refine .inr ?_
  exact accepted.symm ▸ List.mem_singleton_self (bus.wdata, bus.wstrb)

/-! ## Writes -/

/--
The word of a write is on the lanes of its address if and only if it does not
have 64 bits.
-/
theorem write_keepsLanes_iff
    (bus : SimbusAxi4 User)
    (access : Access)
    (accepted : access.Accepted bus.widths)
    (isWrite : access.direction = .write)
    (power : ∃ exponent, bus.widths.dataWidth = 2 ^ exponent)
    (small : bus.widths.dataWidth ≤ 64) :
    access.KeepsLanes bus ↔ access.width ≠ .w64 := by
  obtain ⟨direction, width, addr, prot, data⟩ := access
  obtain rfl : direction = .write := isWrite
  let driven := bus.driveWrite width.clearFrom width.size addr prot data
  rw [Access.KeepsLanes, start_write accepted]
  constructor
  · rintro keeps rfl
    have isGood := waitForResp_accepts rfl rfl rfl keeps
    exact driveWrite_not_onLanes accepted.fits small isGood
  · intro narrow
    have isGood := driveWrite_onLanes accepted power narrow
    have offers : OffersOnly (driven.wdata, driven.wstrb) (.start bus) driven :=
      ⟨fun _ => rfl, nofun⟩
    refine Meets.bind (waitForResp_offers isGood _ driven offers) ?_
    intro resp seen now still
    refine meets_finish.mpr fun word member => ?_
    rw [still.transferred word member]
    exact isGood

/-- A word of 32 bits on a bus of 32 bits. -/
theorem write_keepsLanes_iff_word :
    wordWrite.KeepsLanes (masterWithId 4) ↔ wordWrite.width ≠ .w64 :=
  write_keepsLanes_iff (masterWithId 4) wordWrite (wordWrite_accepted 4) rfl
    ⟨5, rfl⟩ (by decide)

/-- A new master on a bus of 64 bits. -/
def wideMaster : SimbusAxi4 Unit :=
  .init () ⟨64, 32, 4, 4, 1⟩

/-- A write of a word of 64 bits. -/
def longWrite : Access :=
  ⟨.write, .w64, 0x100, 0, 0x123456789abcdef0⟩

/-- The upper half of a word of 64 bits is not on its lanes. -/
theorem longWrite_not_keepsLanes : ¬ longWrite.KeepsLanes wideMaster := by
  intro keeps
  have accepted : longWrite.Accepted wideMaster.widths :=
    ⟨Nat.le_refl 64, rfl, Nat.le_of_ble_eq_true rfl, Nat.le_of_ble_eq_true rfl⟩
  rw [longWrite, Access.KeepsLanes, start_write accepted] at keeps
  have isGood := waitForResp_accepts rfl rfl rfl keeps
  exact driveWrite_not_onLanes (Nat.le_refl 64) (Nat.le_refl 64) isGood

end

end Simbus.Axi4
