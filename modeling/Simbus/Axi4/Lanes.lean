import Simbus.Axi4.Protocol

/-!
# Words on the data bus

What a master puts on the address and the data bus is what a slave takes from
it, and the other way round, if the word is naturally aligned.
-/

namespace Simbus.Axi4

open FourValued

/-! ## Numbers -/

/-- The bits of a number that are the ones of another number. -/
theorem bitsToUint_inside
    {width nbits : Nat}
    {bits : Bits}
    {number : BitVec width}
    (same : ∀ idx, idx < nbits → bits idx = bitsOf number idx)
    (small : number.toNat < 2 ^ nbits) :
    bitsToUint width nbits bits = number := by
  apply BitVec.eq_of_getLsbD_eq
  intro idx bounded
  rw [bitsToUint_getLsbD bits bounded]
  by_cases inside : idx < nbits
  · rw [same idx inside]
    simp [bitsOf, inside]
  · have above : number.getLsbD idx = false := by
      rw [BitVec.getLsbD]
      apply Nat.testBit_lt_two_pow
      exact small.trans_le (Nat.pow_le_pow_right (by decide) (by omega))
    simp [inside, above]

/-- The size of a beat comes as it is. -/
theorem decode_size
    {size : Nat}
    (small : size < 8)
    (old : Bits) :
    bitsToUint 8 3
        (decode (encode 3 (bitsOf (BitVec.ofNat 3 size))) old) =
      BitVec.ofNat 8 size := by
  have fits : (BitVec.ofNat 8 size).toNat < 2 ^ 3 := by
    rw [BitVec.toNat_ofNat]
    omega
  apply bitsToUint_inside
  · intro idx inside
    rw [decode_encode, if_pos inside, bitsOf, bitsOf]
    congr 1
    rw [BitVec.getLsbD_ofNat, BitVec.getLsbD_ofNat]
    have inByte : idx < 8 := by omega
    simp [inside, inByte]
  · exact fits

/-- An address that the bus can carry comes as it is. -/
theorem decode_addr
    {addrWidth : Nat}
    {addr : BitVec 64}
    {bits : Bits}
    (same : ∀ idx, idx < addrWidth → bits idx = bitsOf addr idx)
    (small : addr.toNat < 2 ^ addrWidth)
    (old : Bits) :
    bitsToUint 64 addrWidth (decode (encode addrWidth bits) old) = addr := by
  apply bitsToUint_inside
  · intro idx inside
    rw [decode_encode, if_pos inside, same idx inside]
  · exact small

/-! ## Lanes -/

/-- An aligned word ends within the bus word. -/
theorem aligned_fits
    {addr bytes word : Nat}
    (divides : word ∣ bytes)
    (positive : 0 < bytes)
    (aligned : addr % word = 0) :
    addr % bytes + word ≤ bytes := by
  obtain ⟨count, rfl⟩ := divides
  have some : 0 < count := Nat.pos_of_mul_pos_left positive
  have below : addr / word % count + 1 ≤ count := Nat.mod_lt _ some
  rw [Nat.mod_mul, aligned, Nat.zero_add]
  calc word * (addr / word % count) + word
      = word * (addr / word % count + 1) := by rw [Nat.mul_succ]
    _ ≤ word * count := Nat.mul_le_mul_left word below

/-- The bits of the word that the loops put on the bus. -/
theorem placeWord_word
    {width dataWidth clearFrom pref idx : Nat}
    {data : BitVec width}
    {bits : Bits}
    (inside : idx < width)
    (whole : width ≤ clearFrom) :
    placeWord dataWidth clearFrom pref data bits (pref * 8 + idx) =
      bitsOf data idx := by
  have notCleared : ¬ (pref * 8 + clearFrom ≤ pref * 8 + idx ∧
      pref * 8 + idx < dataWidth) := by omega
  have within : pref * 8 ≤ pref * 8 + idx ∧
      pref * 8 + idx < pref * 8 + width := by omega
  rw [placeWord, if_neg notCleared, if_pos within, Nat.add_sub_cancel_left]

theorem foldl_takeWord_getLsbD
    {width : Nat}
    (bits : Bits)
    (count : Nat)
    {idx : Nat}
    (bounded : idx < width) :
    ((List.range count).foldl
        (fun data idx =>
          data ||| if bits idx = .one then BitVec.twoPow width idx else 0)
        (0 : BitVec width)).getLsbD idx =
      (decide (idx < count) && decide (bits idx = .one)) := by
  induction count with
  | zero =>
      simp
  | succ count inductionHypothesis =>
      rw [List.range_succ, List.foldl_append, List.foldl_cons,
        List.foldl_nil, BitVec.getLsbD_or, inductionHypothesis]
      by_cases top : idx = count
      · subst top
        split
        · rename_i isOne
          simp [isOne, bounded]
        · rename_i notOne
          simp [notOne]
      · have same : (idx < count + 1) = (idx < count) := by
          apply propext
          omega
        have other : (if bits count = .one then BitVec.twoPow width count
            else 0).getLsbD idx = false := by
          split
          · have differ : ¬ count = idx := fun same => top same.symm
            simp [differ]
          · simp
        simp only [other, Bool.or_false, same]

/-- The word that a master takes is the one whose bits it finds. -/
theorem takeWord_bitsOf
    {width : Nat}
    {bits : Bits}
    {data : BitVec width}
    (same : ∀ idx, idx < width → bits idx = bitsOf data idx) :
    takeWord width bits = data := by
  apply BitVec.eq_of_getLsbD_eq
  intro idx bounded
  rw [takeWord, foldl_takeWord_getLsbD bits width bounded, same idx bounded]
  simp [bitsOf, bounded]

/-- The bits of a word that has been put into an array. -/
theorem putWord_word
    {width offset idx : Nat}
    {data : BitVec width}
    {bits : Bits}
    (inside : idx < width) :
    putWord data offset bits (offset + idx) = bitsOf data idx := by
  have within : offset ≤ offset + idx ∧ offset + idx < offset + width := by
    omega
  rw [putWord, if_pos within, Nat.add_sub_cancel_left]

end Simbus.Axi4
