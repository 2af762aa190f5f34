import Simbus.Axi4.Forwarding

/-!
# The codecs of the AXI4 clients

Each signal that one side writes into its READY and the other side reads from
its UNTIL.  All but BID and RID come over bit for bit and change nothing else.
The text of RID is taken from `bid`, and of BID one single position is written,
which may lie in front of the array.
-/

namespace Simbus.Axi4

open FourValued

section

variable {User Device : Type}

/-! ## The variables of the signals -/

namespace MasterSignal

/-- The variable of a signal; a single value is an array of one. -/
def vector (signal : MasterSignal) (bus : SimbusAxi4 User) : Bits :=
  match signal with
  | .aresetN => fun _ => bus.aresetN
  | .awvalid => fun _ => bus.aw.valid
  | .awaddr => bus.aw.addr
  | .awlen => bus.aw.len
  | .awsize => bus.aw.size
  | .awburst => bus.aw.burst
  | .awlock => bus.aw.lock
  | .awcache => bus.aw.cache
  | .awprot => bus.aw.prot
  | .awqos => bus.aw.qos
  | .awid => bus.aw.id
  | .wvalid => fun _ => bus.wvalid
  | .wdata => bus.wdata
  | .wstrb => bus.wstrb
  | .bready => fun _ => bus.bready
  | .arvalid => fun _ => bus.ar.valid
  | .araddr => bus.ar.addr
  | .arlen => bus.ar.len
  | .arsize => bus.ar.size
  | .arburst => bus.ar.burst
  | .arlock => bus.ar.lock
  | .arcache => bus.ar.cache
  | .arprot => bus.ar.prot
  | .arqos => bus.ar.qos
  | .arid => bus.ar.id
  | .rready => fun _ => bus.rready

/-- Write the variable of a signal, and nothing else. -/
def store
    (signal : MasterSignal)
    (bits : Bits)
    (bus : SimbusAxi4 User) : SimbusAxi4 User :=
  match signal with
  | .aresetN => { bus with aresetN := bits 0 }
  | .awvalid => { bus with aw := { bus.aw with valid := bits 0 } }
  | .awaddr => { bus with aw := { bus.aw with addr := bits } }
  | .awlen => { bus with aw := { bus.aw with len := bits } }
  | .awsize => { bus with aw := { bus.aw with size := bits } }
  | .awburst => { bus with aw := { bus.aw with burst := bits } }
  | .awlock => { bus with aw := { bus.aw with lock := bits } }
  | .awcache => { bus with aw := { bus.aw with cache := bits } }
  | .awprot => { bus with aw := { bus.aw with prot := bits } }
  | .awqos => { bus with aw := { bus.aw with qos := bits } }
  | .awid => { bus with aw := { bus.aw with id := bits } }
  | .wvalid => { bus with wvalid := bits 0 }
  | .wdata => { bus with wdata := bits }
  | .wstrb => { bus with wstrb := bits }
  | .bready => { bus with bready := bits 0 }
  | .arvalid => { bus with ar := { bus.ar with valid := bits 0 } }
  | .araddr => { bus with ar := { bus.ar with addr := bits } }
  | .arlen => { bus with ar := { bus.ar with len := bits } }
  | .arsize => { bus with ar := { bus.ar with size := bits } }
  | .arburst => { bus with ar := { bus.ar with burst := bits } }
  | .arlock => { bus with ar := { bus.ar with lock := bits } }
  | .arcache => { bus with ar := { bus.ar with cache := bits } }
  | .arprot => { bus with ar := { bus.ar with prot := bits } }
  | .arqos => { bus with ar := { bus.ar with qos := bits } }
  | .arid => { bus with ar := { bus.ar with id := bits } }
  | .rready => { bus with rready := bits 0 }

end MasterSignal

namespace SlaveSignal

/-- The variable of a signal; a single value is an array of one. -/
def vector (signal : SlaveSignal) (bus : SimbusAxi4 User) : Bits :=
  match signal with
  | .awready => fun _ => bus.awready
  | .wready => fun _ => bus.wready
  | .bvalid => fun _ => bus.bvalid
  | .bresp => bus.bresp
  | .bid => bus.bid
  | .arready => fun _ => bus.arready
  | .rvalid => fun _ => bus.rvalid
  | .rdata => bus.rdata
  | .rresp => bus.rresp
  | .rid => bus.rid
  | .irq => bus.irq

/-- Write the variable of a signal, and nothing else. -/
def store
    (signal : SlaveSignal)
    (bits : Bits)
    (bus : SimbusAxi4 User) : SimbusAxi4 User :=
  match signal with
  | .awready => { bus with awready := bits 0 }
  | .wready => { bus with wready := bits 0 }
  | .bvalid => { bus with bvalid := bits 0 }
  | .bresp => { bus with bresp := bits }
  | .bid => { bus with bid := bits }
  | .arready => { bus with arready := bits 0 }
  | .rvalid => { bus with rvalid := bits 0 }
  | .rdata => { bus with rdata := bits }
  | .rresp => { bus with rresp := bits }
  | .rid => { bus with rid := bits }
  | .irq => { bus with irq := bits }

end SlaveSignal

/-! ## The branches of the decoders -/

namespace SimbusAxi4

/-- What the slave does with the token of one signal. -/
def receiveMaster
    (bus : SimbusAxi4 User)
    (signal : MasterSignal)
    (text : Text) : SimbusAxi4 User :=
  match masterLength bus.widths signal with
  | none => signal.store (fun _ => decodeBit text) bus
  | some _ => signal.store (decode text (signal.vector bus)) bus

/-- What the master does with the token of one signal. -/
def receiveSlave
    (bus : SimbusAxi4 User)
    (signal : SlaveSignal)
    (text : Text) : SimbusAxi4 User :=
  match signal, slaveLength bus.widths signal with
  | .bid, _ => bus.sampleBid text
  | _, none => signal.store (fun _ => decodeBit text) bus
  | _, some _ => signal.store (decode text (signal.vector bus)) bus

/-- The tokens of the slave come in this order. -/
def slaveTokens : List SlaveSignal :=
  [.arready, .awready, .bid, .bresp, .bvalid, .irq, .rdata, .rid, .rresp,
    .rvalid, .wready]

/-- An UNTIL of the slave is decoded token by token. -/
theorem sampleSlave_eq_foldl
    (bus : SimbusAxi4 User)
    (aclk : Logic4)
    (text : MasterSignal → Text) :
    bus.sampleSlave aclk text =
      masterSignals.foldl
        (fun bus signal => bus.receiveMaster signal (text signal))
        { bus with aclk := aclk } := by
  simp only [masterSignals, List.foldl_cons, List.foldl_nil, receiveMaster,
    masterLength, MasterSignal.store, MasterSignal.vector, sampleSlave]

/-- An UNTIL of the master is decoded token by token. -/
theorem sampleMaster_eq_foldl
    (bus : SimbusAxi4 User)
    (aclk : Logic4)
    (text : SlaveSignal → Text) :
    bus.sampleMaster aclk text =
      slaveTokens.foldl
        (fun bus signal => bus.receiveSlave signal (text signal))
        { bus with aclk := aclk } := by
  simp only [slaveTokens, List.foldl_cons, List.foldl_nil, receiveSlave,
    slaveLength, SlaveSignal.store, SlaveSignal.vector, sampleMaster]

end SimbusAxi4

/-! ## Transmission -/

/--
A signal of the master comes over: what is written and read lies inside the
variables, the slave then has the values of the master, and nothing else has
changed.
-/
structure MasterSignal.Transmitted
    (signal : MasterSignal)
    (master : SimbusAxi4 User)
    (slave : SimbusAxi4 Device) : Prop where
  inside : declaredMaster master.widths signal ≤ signal.size
  values : ∀ idx, idx < declaredMaster master.widths signal →
    signal.vector
        (slave.receiveMaster signal (master.masterReady signal)) idx =
      signal.vector master idx
  frame : signal.store (signal.vector slave)
      (slave.receiveMaster signal (master.masterReady signal)) =
    slave

/-- A signal of the slave comes over, in the same sense. -/
structure SlaveSignal.Transmitted
    (signal : SlaveSignal)
    (slave : SimbusAxi4 Device)
    (master : SimbusAxi4 User) : Prop where
  inside : slaveBits master.widths signal ≤ signal.size
  values : ∀ idx, idx < slaveBits master.widths signal →
    signal.vector (master.receiveSlave signal
        (passToMaster master.widths slave.slaveReady signal)) idx =
      signal.vector slave idx
  frame : signal.store (signal.vector master)
      (master.receiveSlave signal
        (passToMaster master.widths slave.slaveReady signal)) =
    master

/--
When BID comes over all the same: the value that is written happens to go to a
place where it is right, and all others are there already.
-/
def BidAgrees
    (slave : SimbusAxi4 Device)
    (master : SimbusAxi4 User) : Prop :=
  match master.widths.widWidth with
  | 0 => True
  | 1 => (∀ idx < 1, master.bid idx = slave.bid idx) ∧
      master.awready = slave.bid 0
  | 2 => (∀ idx < 2, master.bid idx = slave.bid idx) ∧
      master.wready = slave.bid 0
  | 3 => (∀ idx < 3, master.bid idx = slave.bid idx) ∧
      master.bvalid = slave.bid 0
  | 4 => (∀ idx < 4, master.bid idx = slave.bid idx) ∧
      master.bresp 0 = slave.bid 0
  | 5 => (∀ idx < 5, master.bid idx = slave.bid idx) ∧
      master.bresp 1 = slave.bid 0
  | width + 6 => (∀ idx < width + 6, idx ≠ width →
        master.bid idx = slave.bid idx) ∧
      slave.bid width = slave.bid 0

/-- When a signal of the slave comes over, apart from its width. -/
def SlaveSignal.Agrees
    (signal : SlaveSignal)
    (slave : SimbusAxi4 Device)
    (master : SimbusAxi4 User) : Prop :=
  match signal with
  | .bid => BidAgrees slave master
  | .rid => ∀ idx < master.widths.ridWidth, slave.bid idx = slave.rid idx
  | _ => True

theorem SlaveSignal.transmitted_and
    {signal : SlaveSignal}
    {slave : SimbusAxi4 Device}
    {master : SimbusAxi4 User} :
    signal.Transmitted slave master ↔
      slaveBits master.widths signal ≤ signal.size ∧
      (∀ idx, idx < slaveBits master.widths signal →
        signal.vector (master.receiveSlave signal
            (passToMaster master.widths slave.slaveReady signal)) idx =
          signal.vector slave idx) ∧
      signal.store (signal.vector master)
          (master.receiveSlave signal
            (passToMaster master.widths slave.slaveReady signal)) =
        master :=
  ⟨fun ⟨inside, values, frame⟩ => ⟨inside, values, frame⟩,
    fun ⟨inside, values, frame⟩ => ⟨inside, values, frame⟩⟩

/-- A signal of the master comes over if its variable is wide enough. -/
theorem MasterSignal.value_transmitted_iff
    (signal : MasterSignal)
    {master : SimbusAxi4 User}
    {slave : SimbusAxi4 Device} :
    signal.Transmitted master slave ↔
      declaredMaster master.widths signal ≤ signal.size := by
  refine ⟨Transmitted.inside, fun inside => ⟨inside, ?_, ?_⟩⟩
  · intro idx bounded
    cases signal <;>
      simp_all [SimbusAxi4.receiveMaster, SimbusAxi4.masterLength,
        SimbusAxi4.masterReady, declaredMaster, masterBits, store, vector,
        decode_encode]
  · cases signal <;> rfl

/-! ### BID -/

/-- The last value of the text of an array is its first value. -/
theorem getLast?_encode (width : Nat) (bits : Bits) :
    (encode (width + 1) bits).getLast? = some (bits 0) := by
  rw [encode, List.range_succ, List.map_append, List.map_singleton,
    List.getLast?_concat, Nat.add_sub_cancel, Nat.sub_self]

/-- A token of BID that has the right width. -/
theorem receive_bid
    {slave : SimbusAxi4 Device}
    {master : SimbusAxi4 User}
    (same : slave.widths = master.widths) :
    master.receiveSlave .bid
        (passToMaster master.widths slave.slaveReady .bid) =
      match master.widths.widWidth with
      | 0 => master
      | 1 => { master with awready := slave.bid 0 }
      | 2 => { master with wready := slave.bid 0 }
      | 3 => { master with bvalid := slave.bid 0 }
      | 4 => { master with
          bresp := Function.update master.bresp 0 (slave.bid 0) }
      | 5 => { master with
          bresp := Function.update master.bresp 1 (slave.bid 0) }
      | width + 6 => { master with
          bid := Function.update master.bid width (slave.bid 0) } := by
  change master.sampleBid (encode slave.widths.widWidth slave.bid) = _
  rw [SimbusAxi4.sampleBid, same]
  cases isWidth : master.widths.widWidth with
  | zero =>
      rfl
  | succ width =>
      have isLast := getLast?_encode width slave.bid
      generalize (encode (width + 1) slave.bid).getLast? = last at isLast ⊢
      obtain rfl := isLast
      rfl

theorem update_eq_self
    {bits : Bits}
    {idx : Nat}
    {value : Logic4} :
    Function.update bits idx value = bits ↔ bits idx = value := by
  constructor
  · intro same
    rw [← same, Function.update_self]
  · rintro rfl
    exact Function.update_eq_self idx bits

/-- BID comes over only by chance. -/
theorem bid_transmitted_iff
    {slave : SimbusAxi4 Device}
    {master : SimbusAxi4 User}
    (same : slave.widths = master.widths) :
    SlaveSignal.bid.Transmitted slave master ↔
      master.widths.widWidth ≤ 64 ∧ BidAgrees slave master := by
  rw [SlaveSignal.transmitted_and, receive_bid same, BidAgrees, slaveBits]
  apply and_congr_right
  intro _
  generalize master.widths.widWidth = width
  rcases width with _ | _ | _ | _ | _ | _ | width
  case zero =>
      exact ⟨fun _ => trivial, fun _ =>
        ⟨fun idx inside => absurd inside (Nat.not_lt_zero idx), rfl⟩⟩
  case succ.zero =>
      apply and_congr_right
      intro _
      constructor
      · exact fun frame => (congrArg (·.awready) frame).symm
      · intro agrees
        rw [← agrees]
        rfl
  case succ.succ.zero =>
      apply and_congr_right
      intro _
      constructor
      · exact fun frame => (congrArg (·.wready) frame).symm
      · intro agrees
        rw [← agrees]
        rfl
  case succ.succ.succ.zero =>
      apply and_congr_right
      intro _
      constructor
      · exact fun frame => (congrArg (·.bvalid) frame).symm
      · intro agrees
        rw [← agrees]
        rfl
  case succ.succ.succ.succ.zero =>
      apply and_congr_right
      intro _
      constructor
      · exact fun frame =>
          update_eq_self.mp (congrArg (·.bresp) frame)
      · intro agrees
        rw [update_eq_self.mpr agrees]
        rfl
  case succ.succ.succ.succ.succ.zero =>
      apply and_congr_right
      intro _
      constructor
      · exact fun frame =>
          update_eq_self.mp (congrArg (·.bresp) frame)
      · intro agrees
        rw [update_eq_self.mpr agrees]
        rfl
  case succ.succ.succ.succ.succ.succ =>
      constructor
      · rintro ⟨values, _⟩
        have written : slave.bid 0 = slave.bid width := by
          have value : Function.update master.bid width (slave.bid 0) width =
              slave.bid width :=
            values width (by omega)
          rwa [Function.update_self] at value
        refine ⟨fun idx bounded apart => ?_, written.symm⟩
        have value : Function.update master.bid width (slave.bid 0) idx =
            slave.bid idx :=
          values idx bounded
        rwa [Function.update_of_ne apart] at value
      · rintro ⟨others, written⟩
        refine ⟨fun idx bounded => ?_, rfl⟩
        change Function.update master.bid width (slave.bid 0) idx =
          slave.bid idx
        by_cases isWritten : idx = width
        · rw [isWritten, Function.update_self, written]
        · rw [Function.update_of_ne isWritten]
          exact others idx bounded isWritten

/-! ### All signals -/

/-- When a signal of the slave comes over. -/
theorem SlaveSignal.value_transmitted_iff
    (signal : SlaveSignal)
    {slave : SimbusAxi4 Device}
    {master : SimbusAxi4 User}
    (same : slave.widths = master.widths) :
    signal.Transmitted slave master ↔
      slaveBits master.widths signal ≤ signal.size ∧
        signal.Agrees slave master := by
  cases signal with
  | bid =>
      exact bid_transmitted_iff same
  | rid =>
      rw [SlaveSignal.transmitted_and]
      apply and_congr_right
      intro _
      constructor
      · rintro ⟨values, _⟩ idx bounded
        have value : decode (encode slave.widths.ridWidth slave.bid)
            master.rid idx = slave.rid idx :=
          values idx bounded
        rwa [same, decode_encode, if_pos bounded] at value
      · intro agrees
        refine ⟨fun idx bounded => ?_, rfl⟩
        change decode (encode slave.widths.ridWidth slave.bid) master.rid idx =
          slave.rid idx
        rw [same, decode_encode]
        exact (if_pos bounded).trans (agrees idx bounded)
  | irq =>
      rw [SlaveSignal.transmitted_and]
      apply and_congr_right
      intro _
      refine iff_of_true ⟨fun idx bounded => ?_, rfl⟩ trivial
      change decode (if 0 < master.widths.irqWidth then
        encode slave.widths.irqWidth slave.irq else []) master.irq idx =
          slave.irq idx
      have some : 0 < master.widths.irqWidth := Nat.zero_lt_of_lt bounded
      rw [if_pos some, same, decode_encode]
      exact if_pos bounded
  | _ =>
      rw [SlaveSignal.transmitted_and]
      apply and_congr_right
      intro _
      refine iff_of_true ⟨fun idx bounded => ?_, rfl⟩ trivial
      simp_all [SimbusAxi4.receiveSlave, SimbusAxi4.slaveLength,
        SimbusAxi4.slaveReady, passToMaster, slaveBits, SlaveSignal.store,
        SlaveSignal.vector, decode_encode]

/--
Every signal of the master comes over if its variable is wide enough, and so
does every signal of the slave but BID and RID, which do so only where their
values agree by chance.
-/
theorem transmitted_iff
    (master : SimbusAxi4 User)
    (slave : SimbusAxi4 Device)
    (same : slave.widths = master.widths) :
    (∀ signal : MasterSignal,
      signal.Transmitted master slave ↔
        declaredMaster master.widths signal ≤ signal.size) ∧
    ∀ signal : SlaveSignal,
      signal.Transmitted slave master ↔
        slaveBits master.widths signal ≤ signal.size ∧
          signal.Agrees slave master :=
  ⟨fun signal => signal.value_transmitted_iff,
    fun signal => signal.value_transmitted_iff same⟩

/-- A master with ids of 4 bits as it connects. -/
def newMaster : SimbusAxi4 Unit :=
  SimbusAxi4.init () ⟨32, 32, 4, 4, 0⟩

/-- A slave with ids of 4 bits that answers with the id 1. -/
def slaveWithId : SimbusAxi4 Unit :=
  { newMaster with
    bid := bitsOf (1 : BitVec 4)
    rid := bitsOf (1 : BitVec 4) }

/-- A slave whose id of reads is not that of writes. -/
def slaveWithReadId : SimbusAxi4 Unit :=
  { slaveWithId with rid := bitsOf (2 : BitVec 4) }

/-- All but BID comes over from the slave with one id. -/
theorem transmitted_iff_newMaster :
    (∀ signal : MasterSignal, signal.Transmitted newMaster slaveWithId) ∧
      SlaveSignal.rid.Transmitted slaveWithId newMaster ∧
      ¬ SlaveSignal.bid.Transmitted slaveWithId newMaster := by
  have all := transmitted_iff newMaster slaveWithId rfl
  refine ⟨fun signal => (all.1 signal).mpr ?_,
    (all.2 .rid).mpr ⟨by decide, fun _ _ => rfl⟩, fun transmitted => ?_⟩
  · cases signal <;> decide
  · have agrees := ((all.2 .bid).mp transmitted).2
    cases agrees.2

/-- The id of a read does not come over from the slave with two ids. -/
theorem readId_not_transmitted :
    ¬ SlaveSignal.rid.Transmitted slaveWithReadId newMaster := by
  intro transmitted
  have value := transmitted.values 0 (by decide)
  cases value

end

end Simbus.Axi4
