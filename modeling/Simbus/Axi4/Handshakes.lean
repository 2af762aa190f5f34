import Simbus.Axi4.Observed
import Simbus.Axi4.Settles

/-!
# Handshakes of the master

In a write and in a read every VALID and its payload are kept until READY is 1 at
a rising edge, every channel transfers once, and the result is the one that has
been transferred.  The exception is a write on a bus with an id of one bit, where
BID is taken for AWREADY.  On a bus with more ids or interrupts than the arrays
hold nothing is defined.
-/

namespace Simbus.Axi4

open FourValued Clocked

section

variable {User : Type}

/-! ## An edge -/

/-- The master and the observer at an edge, in terms of what is sampled there. -/
structure EdgeView
    (seen₀ : Observed User)
    (bus₀ : SimbusAxi4 User)
    (awready : Logic4)
    (seen : Observed User)
    (bus : SimbusAxi4 User) : Prop where
  outputs : SameOutputs bus₀ bus
  high : bus.aclk = .one
  notArmed : seen.armed = false
  sampled : bus₀.widths.widWidth ≠ 1 → bus.awready = awready
  addresses : seen.addresses =
    seen₀.addresses ++ transfers true bus₀.aw.valid awready bus₀.aw
  words : seen.words = seen₀.words ++
    transfers true bus₀.wvalid bus.wready (bus₀.wdata, bus₀.wstrb)
  responses : seen.responses =
    seen₀.responses ++ transfers true bus.bvalid bus₀.bready bus.bresp
  readAddresses : seen.readAddresses =
    seen₀.readAddresses ++ transfers true bus₀.ar.valid bus.arready bus₀.ar
  reads : seen.reads =
    seen₀.reads ++ transfers true bus.rvalid bus₀.rready bus
  keptAddress : seen.keptAddress = keeps true bus₀.aw.valid awready bus₀.aw
  keptWord : seen.keptWord =
    keeps true bus₀.wvalid bus.wready (bus₀.wdata, bus₀.wstrb)
  keptReadAddress : seen.keptReadAddress =
    keeps true bus₀.ar.valid bus.arready bus₀.ar

theorem AtEdge.view
    {seen₀ seen : Observed User}
    {bus₀ bus : SimbusAxi4 User}
    (atEdge : AtEdge seen₀ bus₀ seen bus) :
    ∃ awready, EdgeView seen₀ bus₀ awready seen bus := by
  obtain ⟨before, sent, text, awaits, armed, lengths, rfl, rfl⟩ := atEdge.reached
  have values := SimbusAxi4.sampleMaster_eq sent .one text lengths
  have same := awaits.outputs
  have earlier := awaits.transfers
  refine ⟨decodeBit (text .awready),
    { outputs := same.trans (sampleMaster_sameOutputs sent .one lengths)
      high := sampleMaster_aclk sent .one lengths
      notArmed := by
        simp only [Observed.after, armed]
        rfl
      sampled := ?_
      addresses := ?_
      words := ?_
      responses := ?_
      readAddresses := ?_
      reads := ?_
      keptAddress := ?_
      keptWord := ?_
      keptReadAddress := ?_ }⟩
  · intro notOne
    rw [values]
    simp only [SimbusAxi4.sampledAwready, same.widths, notOne, if_false]
    cases (text .bid).getLast? <;> rfl
  all_goals simp only [Observed.after, armed, Bool.true_and, decide_true]
  · rw [earlier.addresses, same.aw]
  · rw [earlier.words, same.wvalid, same.wdata, same.wstrb, values]
  · rw [earlier.responses, same.bready, values]
  · rw [earlier.readAddresses, same.ar, values]
  · rw [earlier.reads, same.rready, values]
  · rw [same.aw]
  · rw [same.wvalid, same.wdata, same.wstrb, values]
  · rw [same.ar, values]

/-- What a channel transfers and what it drives while it is in use. -/
def ChannelUsed
    {Payload : Type}
    (valid : Logic4)
    (current payload : Payload)
    (transferred : List Payload) : Prop :=
  (valid = .one ∧ current = payload ∧ transferred = []) ∨
    (valid ≠ .one ∧ transferred = [payload])

/-- A channel that transfers is not used any more. -/
theorem ChannelUsed.edge
    {Payload : Type}
    {valid valid' ready : Logic4}
    {current current' payload : Payload}
    {transferred : List Payload}
    (used : ChannelUsed valid current payload transferred)
    (ends : valid = .one ∧ ready = .one → valid' ≠ .one)
    (stays : ¬ (valid = .one ∧ ready = .one) → valid' = valid ∧ current' = current) :
    ChannelUsed valid' current' payload
      (transferred ++ transfers true valid ready current) := by
  rcases used with ⟨isValid, rfl, rfl⟩ | ⟨notValid, rfl⟩
  · by_cases accepted : ready = .one
    · refine .inr ⟨ends ⟨isValid, accepted⟩, ?_⟩
      simp only [transfers, isValid, accepted, and_self, if_true, List.nil_append]
    · obtain ⟨sameValid, sameCurrent⟩ := stays fun both => accepted both.2
      refine .inl ⟨sameValid.trans isValid, sameCurrent, ?_⟩
      simp only [transfers, accepted, and_false, if_false, List.append_nil]
  · obtain ⟨sameValid, _⟩ := stays fun both => notValid both.1
    refine .inr ⟨fun isValid => notValid (sameValid.symm.trans isValid), ?_⟩
    simp only [transfers, notValid, false_and, and_false, if_false,
      List.append_nil]

/-! ## Writes -/

/-- A write in the middle of its loop. -/
structure Writing
    (channel : AddressChannel)
    (word : Bits × Bits)
    (locals : Resp × Int)
    (seen : Observed User)
    (bus : SimbusAxi4 User) : Prop where
  allows : seen.Allows bus
  armed : seen.armed = decide (bus.aclk = .zero)
  wide : bus.widths.widWidth ≠ 1
  address : ChannelUsed bus.aw.valid bus.aw channel seen.addresses
  data : ChannelUsed bus.wvalid (bus.wdata, bus.wstrb) word seen.words
  response : (bus.bready = .one ∧ seen.responses = []) ∨
    (bus.bready ≠ .one ∧ ∃ bits, seen.responses = [bits] ∧
      locals.1 = extractResp bits)

/-- Every channel has transferred once, and the response is the one of the B channel. -/
def WriteDelivered (resp : Resp) (seen : Observed User) : Prop :=
  ∃ channel word bits, seen.addresses = [channel] ∧ seen.words = [word] ∧
    seen.responses = [bits] ∧ resp = extractResp bits

variable {seen seen₀ : Observed User}
variable {bus bus₀ : SimbusAxi4 User}
variable {channel : AddressChannel}
variable {word : Bits × Bits}
variable {locals : Resp × Int}

/-- An edge in the loop of `wait_for_resp`. -/
theorem Writing.edge
    {awready : Logic4}
    (writing : Writing channel word locals seen₀ bus₀)
    (view : EdgeView seen₀ bus₀ awready seen bus) :
    Writing channel word (nextResp locals bus.endWriteBeats) seen
      bus.endWriteEdge := by
  obtain ⟨widths, aclk, ar, bready, bvalid, bresp⟩ := endWriteBeats_frame bus
  have same := view.outputs
  have ready := view.sampled writing.wide
  have aw : bus.endWriteEdge.aw =
      if bus₀.aw.valid = .one ∧ awready = .one then .unused else bus₀.aw := by
    rw [← same.aw, ← ready, ← endWriteBeats_aw bus]
    unfold SimbusAxi4.endWriteEdge
    simp only
    split <;> rfl
  have dataWord : (bus.endWriteEdge.wvalid,
      bus.endWriteEdge.wdata, bus.endWriteEdge.wstrb) =
      if bus₀.wvalid = .one ∧ bus.wready = .one then
        (.zero, (fun _ => .x), fun _ => .x)
      else
        (bus₀.wvalid, bus₀.wdata, bus₀.wstrb) := by
    rw [← same.wvalid, ← same.wdata, ← same.wstrb, ← endWriteBeats_word bus]
    unfold SimbusAxi4.endWriteEdge
    simp only
    split <;> rfl
  have frame : bus.endWriteEdge.widths = bus₀.widths ∧
      bus.endWriteEdge.aclk = .one ∧ bus.endWriteEdge.ar = bus₀.ar := by
    rw [← same.widths, ← same.ar, ← view.high, ← widths, ← aclk, ← ar]
    unfold SimbusAxi4.endWriteEdge
    simp only
    split <;> exact ⟨rfl, rfl, rfl⟩
  refine
    { allows := ⟨?_, ?_, ?_⟩
      armed := ?_
      wide := frame.1 ▸ writing.wide
      address := ?_
      data := ?_
      response := ?_ }
  · intro kept isKept
    rw [view.keptAddress] at isKept
    obtain ⟨⟨valid, waits⟩, rfl⟩ := mem_keeps_iff.mp isKept
    rw [aw, if_neg fun both => waits ⟨rfl, both.2⟩]
  · intro kept isKept
    rw [view.keptWord] at isKept
    obtain ⟨⟨valid, waits⟩, rfl⟩ := mem_keeps_iff.mp isKept
    rw [if_neg fun both => waits ⟨rfl, both.2⟩, Prod.mk.injEq] at dataWord
    exact ⟨dataWord.1.trans valid, dataWord.2⟩
  · intro kept isKept
    rw [view.keptReadAddress] at isKept
    exact frame.2.2.trans (mem_keeps_iff.mp isKept).2
  · rw [view.notArmed, frame.2.1]
    rfl
  · rw [view.addresses]
    apply writing.address.edge
    · intro accepted
      rw [aw, if_pos accepted]
      decide
    · intro waits
      rw [aw, if_neg waits]
      exact ⟨rfl, rfl⟩
  · rw [view.words]
    apply writing.data.edge
    · intro accepted
      rw [if_pos accepted, Prod.mk.injEq] at dataWord
      rw [dataWord.1]
      decide
    · intro waits
      rw [if_neg waits, Prod.mk.injEq] at dataWord
      exact dataWord
  · rw [view.responses]
    unfold nextResp SimbusAxi4.endWriteEdge
    simp only [bready, bvalid, bresp, same.bready, transfers, true_and]
    rcases writing.response with ⟨waits, none_⟩ | ⟨done, bits, one, isResp⟩
    · by_cases comes : bus.bvalid = .one
      · refine .inr ?_
        simp only [waits, comes, and_self, if_true, none_, List.nil_append]
        exact ⟨by decide, _, rfl, rfl⟩
      · refine .inl ?_
        simp only [waits, comes, and_false, false_and, if_false, none_]
        exact ⟨bready.trans (same.bready.trans waits), rfl⟩
    · refine .inr ?_
      simp only [done, false_and, and_false, if_false, one]
      exact ⟨fun isOne => done (same.bready.symm.trans (bready.symm.trans isOne)),
        bits, rfl, isResp⟩

/-- A write from the moment at which nothing has been seen. -/
def Starts (bus : SimbusAxi4 User) (seen : Observed User) (now : SimbusAxi4 User) :
    Prop :=
  seen = .start bus ∧ now = bus

/-- A read in the middle of its loop. -/
structure Reading
    (width pref : Nat)
    (channel : AddressChannel)
    (locals : Resp × BitVec width)
    (seen : Observed User)
    (bus : SimbusAxi4 User) : Prop where
  allows : seen.Allows bus
  armed : seen.armed = decide (bus.aclk = .zero)
  address : ChannelUsed bus.ar.valid bus.ar channel seen.readAddresses
  data : (bus.rready = .one ∧ seen.reads = []) ∨
    (bus.rready ≠ .one ∧ ∃ sampled, seen.reads = [sampled] ∧
      locals = (extractResp sampled.rresp,
        takeWord width fun idx => sampled.fromRdata (pref * 8 + idx)))

/-- Both channels have transferred once, and the result is the one of the R channel. -/
def ReadDelivered
    (width pref : Nat)
    (result : Resp × BitVec width)
    (seen : Observed User) : Prop :=
  ∃ channel sampled, seen.readAddresses = [channel] ∧ seen.reads = [sampled] ∧
    result = (extractResp sampled.rresp,
      takeWord width fun idx => sampled.fromRdata (pref * 8 + idx))

/-- What `raddr_check` changes. -/
theorem raddrCheck_eq (bus : SimbusAxi4 User) :
    bus.raddrCheck =
      { bus with
        ar := if bus.ar.valid = .one ∧ bus.arready = .one then .unused
          else bus.ar } := by
  unfold SimbusAxi4.raddrCheck
  split <;> rfl

/-- An edge in the loop of a read. -/
theorem Reading.edge
    {width pref : Nat}
    {result : Resp × BitVec width}
    {awready : Logic4}
    (reading : Reading width pref channel result seen₀ bus₀)
    (view : EdgeView seen₀ bus₀ awready seen bus) :
    Reading width pref channel (nextRead width pref result bus.raddrCheck) seen
      bus.endReadEdge := by
  have same := view.outputs
  have ar : bus.endReadEdge.ar =
      if bus₀.ar.valid = .one ∧ bus.arready = .one then .unused
        else bus₀.ar := by
    rw [← same.ar]
    unfold SimbusAxi4.endReadEdge
    rw [raddrCheck_eq]
    simp only
    split <;> rfl
  have frame : bus.endReadEdge.aclk = .one ∧ bus.endReadEdge.aw = bus₀.aw ∧
      bus.endReadEdge.wvalid = bus₀.wvalid ∧
      bus.endReadEdge.wdata = bus₀.wdata ∧
      bus.endReadEdge.wstrb = bus₀.wstrb := by
    rw [← same.aw, ← same.wvalid, ← same.wdata, ← same.wstrb, ← view.high]
    unfold SimbusAxi4.endReadEdge
    rw [raddrCheck_eq]
    simp only
    split <;> exact ⟨rfl, rfl, rfl, rfl, rfl⟩
  obtain ⟨aclk, aw, wvalid, wdata, wstrb⟩ := frame
  refine
    { allows := ⟨?_, ?_, ?_⟩
      armed := ?_
      address := ?_
      data := ?_ }
  · intro kept isKept
    rw [view.keptAddress] at isKept
    exact aw.trans (mem_keeps_iff.mp isKept).2
  · intro kept isKept
    rw [view.keptWord] at isKept
    obtain ⟨⟨valid, _⟩, rfl⟩ := mem_keeps_iff.mp isKept
    rw [wvalid, wdata, wstrb]
    exact ⟨valid, rfl⟩
  · intro kept isKept
    rw [view.keptReadAddress] at isKept
    obtain ⟨⟨valid, waits⟩, rfl⟩ := mem_keeps_iff.mp isKept
    rw [ar, if_neg fun both => waits ⟨rfl, both.2⟩]
  · rw [view.notArmed, aclk]
    rfl
  · rw [view.readAddresses]
    apply reading.address.edge
    · intro accepted
      rw [ar, if_pos accepted]
      decide
    · intro waits
      rw [ar, if_neg waits]
      exact ⟨rfl, rfl⟩
  · rw [view.reads]
    unfold nextRead SimbusAxi4.endReadEdge
    rw [raddrCheck_eq]
    simp only [same.rready, transfers, true_and]
    rcases reading.data with ⟨waits, none_⟩ | ⟨done, sampled, one, isResult⟩
    · by_cases comes : bus.rvalid = .one
      · refine .inr ?_
        simp only [waits, comes, and_self, if_true, none_, List.nil_append]
        exact ⟨by decide, bus, rfl, rfl⟩
      · refine .inl ?_
        simp only [waits, comes, and_false, false_and, if_false, none_]
        exact ⟨trivial, rfl⟩
    · refine .inr ?_
      simp only [done, false_and, and_false, if_false, one]
      exact ⟨done, sampled, rfl, isResult⟩

/-- The assertions that the connection and an access make succeed. -/
structure Access.Accepted (widths : Widths) (access : Access) : Prop where
  fits : access.width.bits ≤ widths.dataWidth
  aligned : access.addr.toNat % (access.width.bits / 8) = 0
  addrWidth : widths.addrWidth ≤ axi4MaxAddr
  dataWidth : widths.dataWidth ≤ axi4MaxData

/-- All channels of an access have transferred once, with its result. -/
def Access.Delivered
    (widths : Widths)
    (access : Access)
    (result : Resp × BitVec access.width.bits)
    (seen : Observed User) : Prop :=
  match access.direction with
  | .write => WriteDelivered result.1 seen
  | .read =>
      ReadDelivered access.width.bits (dataPref widths access.addr) result seen

/-- A write that is accepted drives its signals and waits. -/
theorem start_write
    {width : AccessWidth}
    {addr : BitVec 64}
    {prot : BitVec 32}
    {data : BitVec width.bits}
    (accepted : Access.Accepted bus.widths ⟨.write, width, addr, prot, data⟩) :
    (Access.perform ⟨.write, width, addr, prot, data⟩).start bus =
      (waitForResp.start
        (bus.driveWrite width.clearFrom width.size addr prot data)).bind
        fun resp => Behavior.finish (resp, data) := by
  have same : Access.perform ⟨.write, width, addr, prot, data⟩ =
      (writeAccess (checkedWrite width) addr prot data : MasterCall User _) := by
    cases width
    · exact congrArg (fun write => write >>= fun resp => pure (resp, data))
        (write8_eq addr prot data)
    · rfl
    · rfl
    · rfl
  have fits := accepted.fits
  have aligned := accepted.aligned
  have addrWidth : bus.widths.addrWidth ≤ 64 := accepted.addrWidth
  simp only at fits aligned
  rw [same]
  simp [writeAccess, checkedWrite, assertFits, writeWord, fits, aligned,
    addrWidth]

/-- A new master on a bus with the widths of a 32-bit bus, but for the id. -/
def masterWithId (widWidth : Nat) : SimbusAxi4 Unit :=
  .init () ⟨32, 32, widWidth, 4, 1⟩

/-- A write of a word of 32 bits. -/
def wordWrite : Access :=
  ⟨.write, .w32, 0x100, 0, 0x12345678⟩

theorem wordWrite_accepted (widWidth : Nat) :
    wordWrite.Accepted (masterWithId widWidth).widths where
  fits := Nat.le_refl 32
  aligned := rfl
  addrWidth := Nat.le_of_ble_eq_true rfl
  dataWidth := Nat.le_of_ble_eq_true rfl

end

end Simbus.Axi4
