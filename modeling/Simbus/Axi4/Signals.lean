import Simbus.FourValued
import Mathlib

/-!
# AXI4 signals

The signals of an AXI4 bus as the C library and the server name them, and the
text in which their values travel.
-/

namespace Simbus.Axi4

open FourValued

/-- An array of signal values. -/
abbrev Bits := Nat → Logic4

/-- The values of one signal in a message, from the highest bit down. -/
abbrev Text := List Logic4

/-- `simbus_axi4_resp_t`. -/
inductive Resp where
  | okay
  | exokay
  | slverr
  | decerr
  deriving DecidableEq

/-- The number of a response code. -/
def Resp.toNat : Resp → Nat
  | .okay => 0
  | .exokay => 1
  | .slverr => 2
  | .decerr => 3

/-- The signals of a READY of the master. -/
inductive MasterSignal where
  | aresetN
  | awvalid
  | awaddr
  | awlen
  | awsize
  | awburst
  | awlock
  | awcache
  | awprot
  | awqos
  | awid
  | wvalid
  | wdata
  | wstrb
  | bready
  | arvalid
  | araddr
  | arlen
  | arsize
  | arburst
  | arlock
  | arcache
  | arprot
  | arqos
  | arid
  | rready
  deriving DecidableEq

instance : Fintype MasterSignal :=
  Fintype.ofList
    [.aresetN, .awvalid, .awaddr, .awlen, .awsize, .awburst, .awlock,
      .awcache, .awprot, .awqos, .awid, .wvalid, .wdata, .wstrb, .bready,
      .arvalid, .araddr, .arlen, .arsize, .arburst, .arlock, .arcache,
      .arprot, .arqos, .arid, .rready]
    fun signal => by cases signal <;> decide

/-- The signals of a READY of the slave. -/
inductive SlaveSignal where
  | awready
  | wready
  | bvalid
  | bresp
  | bid
  | arready
  | rvalid
  | rdata
  | rresp
  | rid
  | irq
  deriving DecidableEq

instance : Fintype SlaveSignal :=
  Fintype.ofList
    [.awready, .wready, .bvalid, .bresp, .bid, .arready, .rvalid, .rdata,
      .rresp, .rid, .irq]
    fun signal => by cases signal <;> decide

/-- The widths that are declared when a client connects. -/
structure Widths where
  dataWidth : Nat
  addrWidth : Nat
  widWidth : Nat
  ridWidth : Nat
  irqWidth : Nat
  deriving DecidableEq

/-- The signals of an address channel, without its READY. -/
structure AddressChannel where
  valid : Logic4
  addr : Bits
  len : Bits
  size : Bits
  burst : Bits
  lock : Bits
  cache : Bits
  prot : Bits
  qos : Bits
  id : Bits

/-- The signals of `struct simbus_axi4_s`. -/
structure Axi4Signals where
  aresetN : Logic4
  aw : AddressChannel
  wvalid : Logic4
  wdata : Bits
  wstrb : Bits
  bready : Logic4
  ar : AddressChannel
  rready : Logic4
  aclk : Logic4
  awready : Logic4
  wready : Logic4
  bvalid : Logic4
  bresp : Bits
  bid : Bits
  arready : Logic4
  rvalid : Logic4
  rdata : Bits
  rresp : Bits
  rid : Bits
  irq : Bits

/-! ## Texts -/

/-- The text of an array. -/
def encode (width : Nat) (bits : Bits) : Text :=
  (List.range width).map fun idx => bits (width - 1 - idx)

/-- The text of a single value. -/
def encodeBit (bit : Logic4) : Text :=
  [bit]

/-- An array after a text has been written to it. -/
def decode (text : Text) (bits : Bits) : Bits := fun idx =>
  if idx < text.length then
    text.getD (text.length - 1 - idx) .x
  else
    bits idx

/-- A single value is the first one of a text. -/
def decodeBit (text : Text) : Logic4 :=
  text.headD .x

@[simp]
theorem length_encode (width : Nat) (bits : Bits) :
    (encode width bits).length = width := by
  rw [encode, List.length_map, List.length_range]

@[simp]
theorem length_encodeBit (bit : Logic4) : (encodeBit bit).length = 1 :=
  rfl

@[simp]
theorem decodeBit_encodeBit (bit : Logic4) :
    decodeBit (encodeBit bit) = bit :=
  rfl

/-- What is written to an array is what the sender has. -/
theorem decode_encode
    (width : Nat)
    (bits old : Bits)
    (idx : Nat) :
    decode (encode width bits) old idx =
      if idx < width then bits idx else old idx := by
  rw [decode, length_encode]
  split
  · rename_i inside
    have position : width - 1 - idx < width := by omega
    rw [List.getD_eq_getElem?_getD, encode, List.getElem?_map,
      List.getElem?_range position, Option.map_some, Option.getD_some]
    congr 1
    omega
  · rfl

/-! ## Numbers -/

/-- The bits of a number. -/
def bitsOf {width : Nat} (number : BitVec width) : Bits := fun idx =>
  Logic4.ofBool (number.getLsbD idx)

/-- One turn of the loop of `bits_to_addr` and its like. -/
def takeBit (width : Nat) (bits : Bits) (nbits : Nat)
    (res : BitVec width) (idx : Nat) : BitVec width :=
  (res * 2) ||| if bits (nbits - 1 - idx) = .one then 1 else 0

/--
`bits_to_addr`, `bits_to_uint32` and `bits_to_uint8`: the number in `nbits`
values, where everything but a 1 counts as 0.
-/
def bitsToUint (width nbits : Nat) (bits : Bits) : BitVec width :=
  (List.range nbits).foldl (takeBit width bits nbits) 0

theorem mul_two_getLsbD
    {width : Nat}
    (res : BitVec width)
    (idx : Nat) :
    (res * 2).getLsbD idx =
      (decide (idx < width) && decide (1 ≤ idx) && res.getLsbD (idx - 1)) := by
  have shifted : res * (BitVec.ofNat width 2) = res <<< 1 := by
    apply BitVec.eq_of_toNat_eq
    rw [BitVec.toNat_mul, BitVec.toNat_shiftLeft, BitVec.toNat_ofNat,
      Nat.mul_mod_mod, Nat.shiftLeft_eq, Nat.pow_one]
  change (res * (BitVec.ofNat width 2)).getLsbD idx = _
  rw [shifted, BitVec.getLsbD_shiftLeft]
  cases idx with
  | zero =>
      simp
  | succ idx =>
      simp

theorem lowBit_getLsbD
    {width : Nat}
    (condition : Prop)
    [Decidable condition]
    (idx : Nat) :
    (if condition then (1 : BitVec width) else 0).getLsbD idx =
      (decide (idx < width) && decide (idx = 0) && decide condition) := by
  split
  · rename_i holds
    change (BitVec.ofNat width 1).getLsbD idx = _
    rw [BitVec.getLsbD_one]
    simp only [holds, decide_true, Bool.and_true]
    cases idx with
    | zero =>
        rfl
    | succ idx =>
        simp
  · rename_i fails
    simp [fails]

theorem foldl_takeBit_getLsbD
    {width : Nat}
    (nbits : Nat)
    (bits : Bits)
    (res : BitVec width)
    {idx : Nat}
    (bounded : idx < width) :
    ((List.range nbits).foldl (takeBit width bits nbits) res).getLsbD idx =
      if idx < nbits then
        decide (bits idx = .one)
      else
        res.getLsbD (idx - nbits) := by
  induction nbits generalizing res with
  | zero =>
      rfl
  | succ nbits inductionHypothesis =>
      have shift : (List.map Nat.succ (List.range nbits)).foldl
            (takeBit width bits (nbits + 1))
            (takeBit width bits (nbits + 1) res 0) =
          (List.range nbits).foldl (takeBit width bits nbits)
            (takeBit width bits (nbits + 1) res 0) := by
        rw [List.foldl_map]
        congr 1
        funext acc other
        have position : nbits + 1 - 1 - Nat.succ other = nbits - 1 - other := by
          omega
        rw [takeBit, takeBit, position]
      rw [List.range_succ_eq_map, List.foldl_cons, shift,
        inductionHypothesis]
      have isTop : nbits + 1 - 1 - 0 = nbits := by omega
      by_cases below : idx < nbits
      · rw [if_pos below, if_pos (Nat.lt_succ_of_lt below)]
      · rw [if_neg below, takeBit, BitVec.getLsbD_or, mul_two_getLsbD,
          lowBit_getLsbD, isTop]
        by_cases top : idx = nbits
        · subst top
          have positive : 0 < width := by omega
          simp [positive]
        · have above : ¬ idx < nbits + 1 := by omega
          have position : idx - nbits - 1 = idx - (nbits + 1) := by omega
          have positive : 1 ≤ idx - nbits := by omega
          have inside : idx - nbits < width := by omega
          have notLow : idx - nbits ≠ 0 := by omega
          rw [if_neg above, position]
          simp [positive, inside, notLow]

/-- The bits of a number that is taken from enough values. -/
theorem bitsToUint_getLsbD
    {width nbits : Nat}
    (bits : Bits)
    {idx : Nat}
    (bounded : idx < width) :
    (bitsToUint width nbits bits).getLsbD idx =
      (decide (idx < nbits) && decide (bits idx = .one)) := by
  rw [bitsToUint, foldl_takeBit_getLsbD nbits bits 0 bounded]
  split
  · rename_i inside
    simp [inside]
  · rename_i outside
    simp [outside]

/-- A number comes back from its bits. -/
theorem bitsToUint_bitsOf
    {width : Nat}
    {bits : Bits}
    {number : BitVec width}
    (same : ∀ idx, idx < width → bits idx = bitsOf number idx) :
    bitsToUint width width bits = number := by
  apply BitVec.eq_of_getLsbD_eq
  intro idx bounded
  rw [bitsToUint_getLsbD bits bounded, same idx bounded]
  simp [bitsOf, bounded]

end Simbus.Axi4
