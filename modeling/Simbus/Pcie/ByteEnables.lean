import Simbus.Pcie.Tlp

/-!
# Byte enables of a write

The bytes that a memory write enables: the two byte enable fields of its header
are about the first and the last word of the data, and all bytes in between are
enabled.
-/

namespace Simbus.Pcie

/-- A write enables a byte of its data; the first field counts if there is one word. -/
def Tlp.EnablesByte (tlp : Tlp) (byte : Nat) : Prop :=
  match tlp.words with
  | header :: request :: _ =>
      if byte / 4 = 0 then
        (firstByteEnables request).getLsbD (byte % 4) = true
      else if byte / 4 + 1 = tlpLength header then
        (lastByteEnables request).getLsbD (byte % 4) = true
      else
        byte / 4 + 1 < tlpLength header
  | _ => False

section

variable {lane off len ndata byte : Nat}

/-! ## The masks -/

theorem nibble_shiftLeft_getLsbD
    (inNibble : lane < 4) :
    ((0xf#32 <<< off).getLsbD lane = true) ↔ off ≤ lane := by
  rw [BitVec.getLsbD_shiftLeft]
  have ones : ∀ bit < 4, (0xf#32).getLsbD bit = true := by decide
  by_cases reached : off ≤ lane
  · rw [ones (lane - off) (by omega)]
    simp only [reached, iff_true, Bool.and_true, Bool.and_eq_true,
      decide_eq_true_eq, Bool.not_eq_true', decide_eq_false_iff_not]
    omega
  · have below : lane < off := by omega
    simp [below, reached]

theorem highNibble_shiftLeft_getLsbD
    (inNibble : lane < 4) :
    ((0xf0#32 <<< off).getLsbD (lane + 4) = true) ↔ off ≤ lane := by
  rw [BitVec.getLsbD_shiftLeft]
  have ones : ∀ bit < 8, (0xf0#32).getLsbD bit = decide (4 ≤ bit) := by decide
  by_cases below : lane + 4 < off
  · have notReached : ¬ off ≤ lane := by omega
    simp [below, notReached]
  · rw [ones (lane + 4 - off) (by omega)]
    simp only [below, decide_false, Bool.not_false, Bool.and_true,
      Bool.and_eq_true, decide_eq_true_eq]
    omega

/-- The first field when there are several words: all bytes from `off` on. -/
theorem firstByteEnables_several
    (several : ndata ≠ 1)
    (inNibble : lane < 4) :
    (firstByteEnables (writeByteEnables ndata off len)).getLsbD lane = true ↔
      off ≤ lane := by
  have low : (0xf : BitVec 32).getLsbD lane = true ∧
      (0xf0 : BitVec 32).getLsbD lane = false := by
    revert lane
    decide
  rw [← nibble_shiftLeft_getLsbD inNibble, firstByteEnables, writeByteEnables,
    if_neg several]
  simp only [BitVec.getLsbD_and, BitVec.getLsbD_or, low.1, low.2,
    Bool.false_and, Bool.false_or, Bool.true_and, Bool.and_true]

/-- The last field: the bytes before the end of the data. -/
theorem lastByteEnables_several
    (several : ndata ≠ 1)
    (inNibble : lane < 4) :
    (lastByteEnables (writeByteEnables ndata off len)).getLsbD lane = true ↔
      lane < if (off + len) % 4 = 0 then 4 else (off + len) % 4 := by
  have high : (0xf0 : BitVec 32).getLsbD (lane + 4) = true ∧
      (0xf : BitVec 32).getLsbD (lane + 4) = false := by
    revert lane
    decide
  have inWord : lane + 4 < 32 := by omega
  rw [← not_le, ← highNibble_shiftLeft_getLsbD inNibble, lastByteEnables,
    writeByteEnables, if_neg several, BitVec.getLsbD_ushiftRight, Nat.add_comm 4]
  simp only [BitVec.getLsbD_and, BitVec.getLsbD_or, BitVec.getLsbD_not, high.1,
    high.2, inWord, decide_true, Bool.false_and, Bool.or_false, Bool.true_and,
    Bool.and_true, Bool.not_eq_true', Bool.not_eq_true]

/-- The field of a single word: its end is measured from the start of the word. -/
theorem firstByteEnables_single
    (inNibble : lane < 4) :
    (firstByteEnables (writeByteEnables 1 off len)).getLsbD lane = true ↔
      off ≤ lane ∧ lane < len := by
  have low : (0xf : BitVec 32).getLsbD lane = true := by
    revert lane
    decide
  have inWord : lane < 32 := by omega
  rw [← nibble_shiftLeft_getLsbD inNibble, ← @not_le Nat _ len lane,
    ← nibble_shiftLeft_getLsbD inNibble, firstByteEnables, writeByteEnables,
    if_pos rfl]
  simp only [BitVec.getLsbD_and, BitVec.getLsbD_not, low, inWord, decide_true,
    Bool.true_and, Bool.and_true, Bool.and_eq_true, Bool.not_eq_true',
    Bool.not_eq_true]
  exact and_comm

/-! ## The packet -/

/-- What `simbus_pcie_tlp_write` asserts and documents of its arguments. -/
structure WriteSpan (ndata off len : Nat) : Prop where
  someData : 1 ≤ ndata
  fewData : ndata ≤ 1023
  skips : off ≤ 3
  some : 1 ≤ len
  fits : off + len ≤ 4 * ndata
  reachesLast : 4 * (ndata - 1) < off + len

variable {data : List (BitVec 32)}

theorem writeTlp_enablesByte
    (requestId : BitVec 16)
    (addr : BitVec 64)
    (span : WriteSpan data.length off len) :
    (writeTlp requestId addr data off len).EnablesByte byte ↔
      if data.length = 1 then
        off ≤ byte ∧ byte < len
      else
        off ≤ byte ∧ byte < off + len := by
  have lane : byte % 4 < 4 := Nat.mod_lt _ (by decide)
  have count : tlpLength ((if addrHigh addr = 0 then 0x40000000 else 0x60000000)
      ||| BitVec.ofNat 32 data.length) = data.length := by
    apply tlpLength_header span.fewData
    split <;> rfl
  obtain ⟨someData, fewData, skips, some, fits, reachesLast⟩ := span
  unfold Tlp.EnablesByte writeTlp
  simp only [count, firstByteEnables_request, lastByteEnables_request]
  by_cases single : data.length = 1
  · rw [single] at fits ⊢
    rw [if_pos rfl, firstByteEnables_single lane]
    split
    · omega
    · have outside : ¬ byte / 4 + 1 = 1 := by omega
      rw [if_neg outside]
      omega
  · rw [firstByteEnables_several single lane, lastByteEnables_several single lane,
      if_neg single]
    split
    · omega
    · split
      · split <;> omega
      · omega

/--
The enabled bytes are those from `off` on that there are `len` of, unless a part
of a single word is written that does not begin with its first byte.
-/
theorem writeTlp_enables_iff
    (requestId : BitVec 16)
    (addr : BitVec 64)
    (data : List (BitVec 32))
    (off len : Nat)
    (span : WriteSpan data.length off len) :
    (∀ byte, (writeTlp requestId addr data off len).EnablesByte byte ↔
        off ≤ byte ∧ byte < off + len) ↔
      data.length ≠ 1 ∨ off = 0 := by
  simp only [writeTlp_enablesByte requestId addr span]
  by_cases single : data.length = 1
  · simp only [single, if_true, ne_eq, not_true_eq_false, false_or]
    have some := span.some
    constructor
    · intro asked
      -- The last byte that is asked for is left out.
      have last := (asked (off + len - 1)).mpr ⟨by omega, by omega⟩
      omega
    · rintro rfl byte
      rw [Nat.zero_add]
  · simp only [single, if_false, implies_true, ne_eq, not_false_eq_true,
      true_or]

/-- Two words, of which the first and the last byte are skipped. -/
theorem writeTlp_enables_iff_twoWords :
    WriteSpan 2 1 6 ∧
      ∀ byte, (writeTlp 0 0x1000 [0x44332211, 0x88776655] 1 6).EnablesByte byte ↔
        1 ≤ byte ∧ byte < 1 + 6 :=
  have span : WriteSpan 2 1 6 :=
    ⟨by decide, by decide, by decide, by decide, by decide, by decide⟩
  ⟨span, (writeTlp_enables_iff 0 0x1000 [0x44332211, 0x88776655] 1 6 span).mpr
    (.inl (by decide))⟩

/-- Of the two bytes in the middle of a word only the first is enabled. -/
theorem middleBytes_not_enabled :
    WriteSpan 1 1 2 ∧
      ¬ ∀ byte, (writeTlp 0 0x1000 [0x44332211] 1 2).EnablesByte byte ↔
        1 ≤ byte ∧ byte < 1 + 2 := by
  have span : WriteSpan 1 1 2 :=
    ⟨by decide, by decide, by decide, by decide, by decide, by decide⟩
  refine ⟨span, fun asked => ?_⟩
  have second := (asked 2).mpr ⟨by decide, by decide⟩
  rw [@writeTlp_enablesByte 1 2 2 [0x44332211] 0 0x1000 span] at second
  exact absurd second.2 (by decide)

end

end Simbus.Pcie
