import Simbus.Pcie.Client

/-!
# A packet as a stream of transfers

The transfers of a packet carry two words each, and the word assembly of the
receiver gets the words back from them.
-/

namespace Simbus.Pcie

open FourValued Clocked

/-- The transfers of a packet. -/
def beats : List (BitVec 32) → List Beat
  | [] => []
  | [word] => [beatOf [word]]
  | first :: second :: rest => beatOf (first :: second :: rest) :: beats rest

/-- The transfers of a packet that is sent. -/
def Tlp.beats (tlp : Tlp) : List Beat :=
  Pcie.beats tlp.words

theorem beats_cons
    (first : BitVec 32)
    (rest : List (BitVec 32)) :
    beats (first :: rest) = beatOf (first :: rest) :: beats (rest.drop 1) := by
  cases rest with
  | nil =>
      rfl
  | cons second rest =>
      rfl

theorem beats_eq_nil_iff {data : List (BitVec 32)} :
    beats data = [] ↔ data = [] := by
  cases data with
  | nil =>
      simp [beats]
  | cons first rest =>
      simp [beats_cons]

/-! ## Word assembly -/

/-- Shifting in a byte puts its bits at the low end of the word. -/
theorem shiftByte_getLsbD
    (tdata : Fin 64 → Logic4)
    (byte : Fin 8)
    {bits : Nat}
    (bounded : bits ≤ 8)
    (val : BitVec 32)
    {bit : Nat}
    (inWord : bit < 32) :
    (shiftByte tdata byte bits val).getLsbD bit =
      if bit < bits then
        decide (tdata (Fin.ofNat 64 (8 * byte.val + bit)) = .one)
      else
        val.getLsbD (bit - bits) := by
  induction bits generalizing val with
  | zero =>
      simp [shiftByte]
  | succ bits inductionHypothesis =>
      rw [shiftByte, inductionHypothesis (by omega)]
      by_cases low : bit < bits
      · rw [if_pos low, if_pos (by omega)]
      · rw [if_neg low, BitVec.getLsbD_or, BitVec.getLsbD_shiftLeft]
        by_cases same : bit = bits
        · subst same
          simp only [Nat.lt_succ_self, ↓reduceIte, Nat.sub_self]
          by_cases isOne :
              tdata (Fin.ofNat 64 (8 * byte.val + bit)) = .one
          · rw [if_pos isOne, decide_eq_true isOne]
            simp
          · rw [if_neg isOne, decide_eq_false isOne]
            simp
        · obtain ⟨above, isAbove⟩ : ∃ above, bit = bits + 1 + above :=
            ⟨bit - (bits + 1), by omega⟩
          subst isAbove
          have shifted : bits + 1 + above - bits = above + 1 := by omega
          rw [if_neg (show ¬ bits + 1 + above < bits + 1 by omega), shifted,
            Nat.add_sub_cancel_left]
          split <;> simp [show above + 1 < 32 by omega]

theorem keepByte_kept
    {beat : Beat}
    {idx : Nat}
    (kept : beat.tkeep (keepBit idx) = .one)
    (assembly : Assembly) :
    keepByte beat assembly idx =
      if assembly.bytes + 1 = 4 then
        { val := 0
          bytes := 0
          words := assembly.words ++
            [shiftByte beat.tdata (keepBit idx) 8 assembly.val] }
      else
        { val := shiftByte beat.tdata (keepBit idx) 8 assembly.val
          bytes := assembly.bytes + 1
          words := assembly.words } := by
  rw [keepByte, if_pos kept]

/-- The bytes of one half of a transfer. -/
def halfLoop (beat : Beat) (half : Nat) (assembly : Assembly) : Assembly :=
  keepByte beat
    (keepByte beat
      (keepByte beat
        (keepByte beat assembly (4 * half + 0))
        (4 * half + 1))
      (4 * half + 2))
    (4 * half + 3)

theorem assemble_eq_halves (beat : Beat) :
    assemble beat =
      halfLoop beat 1 (halfLoop beat 0 { val := 0, bytes := 0, words := [] }) :=
  rfl

theorem keepBit_half
    {half offset : Nat}
    (isHalf : half = 0 ∨ half = 1)
    (inHalf : offset < 4) :
    (keepBit (4 * half + offset)).val = 4 * half + 3 - offset := by
  rcases isHalf with rfl | rfl <;> interval_cases offset <;> decide

/-- A half that is not kept is skipped. -/
theorem halfLoop_skipped
    {beat : Beat}
    (skipped : ∀ lane : Fin 8, 4 ≤ lane.val → beat.tkeep lane ≠ .one)
    (assembly : Assembly) :
    halfLoop beat 1 assembly = assembly := by
  have skip {offset : Nat} (inHalf : offset < 4) (assembly : Assembly) :
      keepByte beat assembly (4 * 1 + offset) = assembly := by
    rw [keepByte, if_neg]
    apply skipped
    rw [keepBit_half (.inr rfl) inHalf]
    omega
  unfold halfLoop
  rw [skip (by omega), skip (by omega), skip (by omega), skip (by omega)]

/-- Four bytes that are shifted in make the word on their lines. -/
theorem shiftByte_half
    {tdata : Fin 64 → Logic4}
    {half : Nat}
    {word : BitVec 32}
    (isHalf : half = 0 ∨ half = 1)
    (carried : ∀ bit, bit < 32 →
      decide (tdata (Fin.ofNat 64 (32 * half + bit)) = .one) =
        word.getLsbD bit) :
    shiftByte tdata (keepBit (4 * half + 3)) 8
      (shiftByte tdata (keepBit (4 * half + 2)) 8
        (shiftByte tdata (keepBit (4 * half + 1)) 8
          (shiftByte tdata (keepBit (4 * half + 0)) 8 0))) = word := by
  apply BitVec.eq_of_getLsbD_eq
  intro bit inWord
  have isBit {base : Nat} (position : base = 32 * half + bit) :
      decide (tdata (Fin.ofNat 64 base) = .one) = word.getLsbD bit := by
    subst position
    exact carried bit inWord
  rw [shiftByte_getLsbD _ _ (Nat.le_refl 8) _ inWord]
  split
  · exact isBit (by rw [keepBit_half isHalf (by omega)]; omega)
  · rw [shiftByte_getLsbD _ _ (Nat.le_refl 8) _ (by omega)]
    split
    · exact isBit (by rw [keepBit_half isHalf (by omega)]; omega)
    · rw [shiftByte_getLsbD _ _ (Nat.le_refl 8) _ (by omega)]
      split
      · exact isBit (by rw [keepBit_half isHalf (by omega)]; omega)
      · rw [shiftByte_getLsbD _ _ (Nat.le_refl 8) _ (by omega),
          if_pos (by omega)]
        exact isBit (by rw [keepBit_half isHalf (by omega)]; omega)

/-- A half that is kept completes the word on its lines. -/
theorem halfLoop_kept
    {beat : Beat}
    {half : Nat}
    {word : BitVec 32}
    (isHalf : half = 0 ∨ half = 1)
    (kept : ∀ lane : Fin 8, lane.val / 4 = half → beat.tkeep lane = .one)
    (carried : ∀ bit, bit < 32 →
      decide (beat.tdata (Fin.ofNat 64 (32 * half + bit)) = .one) =
        word.getLsbD bit)
    (words : List (BitVec 32)) :
    halfLoop beat half { val := 0, bytes := 0, words := words } =
      { val := 0, bytes := 0, words := words ++ [word] } := by
  have keep {offset : Nat} (inHalf : offset < 4) :
      beat.tkeep (keepBit (4 * half + offset)) = .one := by
    apply kept
    rw [keepBit_half isHalf inHalf]
    omega
  unfold halfLoop
  rw [keepByte_kept (keep (by omega)), keepByte_kept (keep (by omega)),
    keepByte_kept (keep (by omega)), keepByte_kept (keep (by omega))]
  simp only [Nat.reduceAdd, Nat.reduceEqDiff, ↓reduceIte]
  rw [shiftByte_half isHalf carried]

/-- The receiver gets the words of a transfer. -/
theorem assemble_beatOf
    (first : BitVec 32)
    (rest : List (BitVec 32)) :
    assemble (beatOf (first :: rest)) =
      { val := 0, bytes := 0, words := (first :: rest).take 2 } := by
  have low :
      halfLoop (beatOf (first :: rest)) 0
          { val := 0, bytes := 0, words := [] } =
        { val := 0, bytes := 0, words := [first] } := by
    refine halfLoop_kept (.inl rfl) ?_ ?_ []
    · intro lane isLow
      simp [beatOf, show lane.val < 4 by omega, Logic4.ofBool]
    · intro bit inWord
      have small : bit % 64 = bit := by omega
      simp [beatOf, small, inWord]
  rw [assemble_eq_halves, low]
  cases rest with
  | nil =>
      refine halfLoop_skipped ?_ _
      intro lane isHigh
      simp [beatOf, show ¬ lane.val < 4 by omega, Logic4.ofBool]
  | cons second rest =>
      refine halfLoop_kept (.inr rfl) ?_ ?_ [first]
      · intro lane isHigh
        simp [beatOf, Logic4.ofBool]
      · intro bit inWord
        have small : (32 + bit) % 64 = 32 + bit := by omega
        simp [beatOf, small]

/-- The words that are assembled from some transfers. -/
def assembledWords (transfers : List Beat) : List (BitVec 32) :=
  transfers.flatMap fun beat => (assemble beat).words

/-- The transfers of a packet give its words, each once and in order. -/
theorem assembledWords_beats (data : List (BitVec 32)) :
    assembledWords (beats data) = data := by
  induction data using beats.induct with
  | case1 =>
      rfl
  | case2 word =>
      simp [beats, assembledWords, assemble_beatOf]
  | case3 first second rest inductionHypothesis =>
      rw [beats, assembledWords, List.flatMap_cons, assemble_beatOf]
      change [first, second] ++ assembledWords (beats rest) = _
      rw [inductionHypothesis]
      rfl

/-- A buffer after some words have been put into it. -/
def putBuffer
    (buf : Nat → BitVec 32)
    (cnt : Nat) : List (BitVec 32) → Nat → BitVec 32
  | [] => buf
  | val :: rest => putBuffer (Function.update buf cnt val) (cnt + 1) rest

theorem putBuffer_before
    {words : List (BitVec 32)}
    {buf : Nat → BitVec 32}
    {cnt idx : Nat}
    (before : idx < cnt) :
    putBuffer buf cnt words idx = buf idx := by
  induction words generalizing buf cnt with
  | nil =>
      rfl
  | cons val rest inductionHypothesis =>
      rw [putBuffer, inductionHypothesis (Nat.lt_succ_of_lt before),
        Function.update_of_ne (Nat.ne_of_lt before)]

theorem putBuffer_beyond
    {words : List (BitVec 32)}
    {buf : Nat → BitVec 32}
    {cnt idx : Nat}
    (beyond : cnt + words.length ≤ idx) :
    putBuffer buf cnt words idx = buf idx := by
  induction words generalizing buf cnt with
  | nil =>
      rfl
  | cons val rest inductionHypothesis =>
      rw [List.length_cons] at beyond
      rw [putBuffer, inductionHypothesis (by omega),
        Function.update_of_ne (by omega)]

theorem putBuffer_within
    {words : List (BitVec 32)}
    {buf : Nat → BitVec 32}
    {cnt idx : Nat}
    (within : idx < words.length) :
    putBuffer buf cnt words (cnt + idx) = words.getD idx 0 := by
  induction words generalizing buf cnt idx with
  | nil =>
      cases within
  | cons val rest inductionHypothesis =>
      rw [putBuffer]
      cases idx with
      | zero =>
          rw [putBuffer_before (show cnt + 0 < cnt + 1 by omega)]
          exact Function.update_self ..
      | succ idx =>
          have place : cnt + (idx + 1) = cnt + 1 + idx := by omega
          rw [place, inductionHypothesis (Nat.lt_of_succ_lt_succ within)]
          rfl

/-- The words of a packet have been received. -/
def SimbusPcieTlp.putWords
    {User : Type}
    (bus : SimbusPcieTlp User)
    (words : List (BitVec 32)) : SimbusPcieTlp User :=
  { bus with
    sTlpBuf := putBuffer bus.sTlpBuf bus.sTlpCnt words
    sTlpCnt := bus.sTlpCnt + words.length }

theorem crankAll_putWords
    {User : Type}
    {words : List (BitVec 32)}
    {bus : SimbusPcieTlp User}
    (fits : bus.sTlpCnt + words.length ≤ maxTlp) :
    (crankAll words).start bus = .finish () (bus.putWords words) := by
  induction words generalizing bus with
  | nil =>
      rfl
  | cons val rest inductionHypothesis =>
      rw [List.length_cons] at fits
      have room : bus.sTlpCnt < maxTlp := by omega
      let next : SimbusPcieTlp User :=
        { bus with
          sTlpBuf := Function.update bus.sTlpBuf bus.sTlpCnt val
          sTlpCnt := bus.sTlpCnt + 1 }
      have crank : (crankRecvTlp val).start bus = .finish () next := by
        simp [crankRecvTlp, check, room, next]
      have later : next.putWords rest = bus.putWords (val :: rest) := by
        simp only [SimbusPcieTlp.putWords, next, putBuffer, List.length_cons]
        rw [Nat.add_assoc, Nat.add_comm 1 rest.length]
      rw [crankAll, Program.start_bind, crank, Behavior.finish_bind, ← later]
      exact inductionHypothesis (by simp only [next]; omega)

/-- The words that have been received of a packet. -/
def SimbusPcieTlp.received
    {User : Type}
    (bus : SimbusPcieTlp User) : List (BitVec 32) :=
  (List.range bus.sTlpCnt).map bus.sTlpBuf

/-- Words that fit into the buffer are put behind those that are there. -/
theorem crankAll_received
    {User : Type}
    {words : List (BitVec 32)}
    {bus : SimbusPcieTlp User}
    (fits : bus.sTlpCnt + words.length ≤ maxTlp) :
    ∃ buf, (crankAll words).start bus =
        .finish ()
          { bus with
            sTlpBuf := buf
            sTlpCnt := bus.sTlpCnt + words.length } ∧
      (List.range (bus.sTlpCnt + words.length)).map buf =
        bus.received ++ words := by
  refine ⟨putBuffer bus.sTlpBuf bus.sTlpCnt words, crankAll_putWords fits, ?_⟩
  rw [List.range_add, List.map_append, List.map_map, SimbusPcieTlp.received]
  congr 1
  · apply List.map_congr_left
    intro idx member
    exact putBuffer_before (List.mem_range.mp member)
  · apply List.ext_getElem
    · rw [List.length_map, List.length_range]
    · intro idx inside within
      rw [List.getElem_map, List.getElem_range, Function.comp_apply,
        putBuffer_within within]
      exact (List.getElem_eq_getD 0).symm

/-- No transfer of a packet ends in the middle of a word. -/
theorem assemble_bytes_beats
    {data : List (BitVec 32)}
    {beat : Beat}
    (member : beat ∈ beats data) :
    (assemble beat).bytes = 0 := by
  induction data using beats.induct with
  | case1 =>
      cases member
  | case2 word =>
      obtain rfl := List.mem_singleton.mp member
      rw [assemble_beatOf]
  | case3 first second rest inductionHypothesis =>
      rcases List.mem_cons.mp member with rfl | later
      · rw [assemble_beatOf]
      · exact inductionHypothesis later

/-- TLAST is set in the last transfer and in no other. -/
theorem beats_tlast
    {data : List (BitVec 32)}
    (nonempty : data ≠ []) :
    ∃ front last, beats data = front ++ [last] ∧ last.tlast = .one ∧
      ∀ beat ∈ front, beat.tlast = .zero := by
  induction data using beats.induct with
  | case1 =>
      exact (nonempty rfl).elim
  | case2 word =>
      exact ⟨[], beatOf [word], rfl, rfl, nofun⟩
  | case3 first second rest inductionHypothesis =>
      by_cases ends : rest = []
      · subst ends
        exact ⟨[], beatOf [first, second], rfl, rfl, nofun⟩
      · obtain ⟨front, last, shape, isLast, notLast⟩ :=
          inductionHypothesis ends
        refine ⟨beatOf (first :: second :: rest) :: front, last,
          by rw [beats, shape, List.cons_append], isLast, ?_⟩
        rw [List.forall_mem_cons]
        refine ⟨?_, notLast⟩
        have longer := List.length_pos_iff.mpr ends
        simp [beatOf, show rest ≠ [] from ends, Logic4.ofBool]

end Simbus.Pcie
