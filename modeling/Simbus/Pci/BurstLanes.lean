import Simbus.Pci.Target
import Mathlib

/-!
# Byte lanes of a write burst

The byte enables of the first, the middle and the last word of a PCI-X burst
select exactly the bytes of the burst, whatever the address and the byte count.
-/

namespace Simbus.Pci

/-! ## Calls -/

/-- One call of a `recv32` callback. -/
structure Recv32Call where
  addr : BitVec 64
  val : BitVec 32
  ben : BitVec 32

/-- The addresses of the bytes whose lanes are enabled. -/
def Recv32Call.bytes (call : Recv32Call) : List (BitVec 64) :=
  ((List.range 4).filter fun lane => !call.ben.getLsbD lane).map fun lane =>
    call.addr + BitVec.ofNat 64 lane

/-- The bytes of a burst. -/
def burstBytes (addr : BitVec 64) (byteCount : Nat) : List (BitVec 64) :=
  (List.range byteCount).map fun idx => addr + BitVec.ofNat 64 idx

/-- No byte of a burst comes twice. -/
theorem burstBytes_nodup
    (addr : BitVec 64)
    {byteCount : Nat}
    (fits : byteCount ≤ 2 ^ 64) :
    (burstBytes addr byteCount).Nodup := by
  refine List.Nodup.map_on ?_ List.nodup_range
  intro first firstInside second secondInside same
  have firstSmall := List.mem_range.mp firstInside
  have secondSmall := List.mem_range.mp secondInside
  have numbers := congrArg BitVec.toNat ((BitVec.add_right_inj addr).mp same)
  rwa [BitVec.toNat_ofNat, BitVec.toNat_ofNat,
    Nat.mod_eq_of_lt (by omega), Nat.mod_eq_of_lt (by omega)] at numbers

/-- A byte between the first and the last one. -/
def InBurst (first count byte : Nat) : Prop :=
  first ≤ byte ∧ byte < first + count

instance (first count byte : Nat) : Decidable (InBurst first count byte) :=
  inferInstanceAs (Decidable (_ ∧ _))

/-- The numbers of a burst are picked from all numbers. -/
theorem range_filter_inBurst
    {first count size : Nat}
    (fits : first + count ≤ size) :
    (List.range size).filter (fun byte => InBurst first count byte) =
      (List.range count).map (first + ·) := by
  obtain ⟨rest, rfl⟩ := Nat.exists_eq_add_of_le fits
  have before : (List.range first).filter
      (fun byte => decide (InBurst first count byte)) = [] := by
    rw [List.filter_eq_nil_iff]
    intro byte member
    have small := List.mem_range.mp member
    rw [decide_eq_true_eq, InBurst]
    omega
  have within : ((List.range count).map (first + ·)).filter
      (fun byte => decide (InBurst first count byte)) =
        (List.range count).map (first + ·) := by
    rw [List.filter_eq_self]
    intro byte member
    obtain ⟨idx, inside, rfl⟩ := List.mem_map.mp member
    have small := List.mem_range.mp inside
    rw [decide_eq_true_eq, InBurst]
    omega
  have after : ((List.range rest).map (first + count + ·)).filter
      (fun byte => decide (InBurst first count byte)) = [] := by
    rw [List.filter_eq_nil_iff]
    intro byte member
    obtain ⟨idx, _, rfl⟩ := List.mem_map.mp member
    rw [decide_eq_true_eq, InBurst]
    omega
  rw [List.range_add, List.range_add, List.filter_append, List.filter_append,
    before, within, after, List.nil_append, List.append_nil]

/-- The enabled lanes of one word are its bytes of the burst. -/
theorem bytes_eq
    {base : BitVec 64}
    {first count word : Nat}
    {call : Recv32Call}
    (place : call.addr = base + BitVec.ofNat 64 (4 * word))
    (lanes : ∀ lane, lane < 4 →
      (call.ben.getLsbD lane = false ↔ InBurst first count (4 * word + lane))) :
    call.bytes =
      (((List.range 4).map (4 * word + ·)).filter
        (fun byte => InBurst first count byte)).map
          fun byte => base + BitVec.ofNat 64 byte := by
  have picked : (List.range 4).filter (fun lane => !call.ben.getLsbD lane) =
      (List.range 4).filter
        ((fun byte => decide (InBurst first count byte)) ∘ (4 * word + ·)) := by
    apply List.filter_congr
    intro lane member
    have isLane := lanes lane (List.mem_range.mp member)
    rw [Bool.eq_iff_iff, Bool.not_eq_true', Function.comp_apply,
      decide_eq_true_eq]
    exact isLane
  rw [Recv32Call.bytes, picked, List.filter_map, List.map_map]
  congr 1
  funext lane
  rw [Function.comp_apply, place, BitVec.ofNat_add, BitVec.add_assoc]

/-- The enabled lanes of all words are the bytes of the burst. -/
theorem flatMap_bytes_eq
    {base : BitVec 64}
    {first count words : Nat}
    {calls : List Recv32Call}
    (length : calls.length = words)
    (fits : first + count ≤ 4 * words)
    (place : ∀ word call, calls[word]? = some call →
      call.addr = base + BitVec.ofNat 64 (4 * word))
    (lanes : ∀ word call, calls[word]? = some call → ∀ lane, lane < 4 →
      (call.ben.getLsbD lane = false ↔ InBurst first count (4 * word + lane))) :
    calls.flatMap Recv32Call.bytes =
      burstBytes (base + BitVec.ofNat 64 first) count := by
  have all : calls.flatMap Recv32Call.bytes =
      ((List.range (4 * words)).filter
        (fun byte => InBurst first count byte)).map
          fun byte => base + BitVec.ofNat 64 byte := by
    clear fits
    induction calls using List.reverseRecOn generalizing words with
    | nil =>
        subst length
        rfl
    | append_singleton calls last inductionHypothesis =>
        obtain rfl : words = calls.length + 1 := by
          rw [← length, List.length_append]
          rfl
        have isLast : (calls ++ [last])[calls.length]? = some last := by
          simp
        have isCall : ∀ (word : Nat) (call : Recv32Call), calls[word]? = some call →
            (calls ++ [last])[word]? = some call := by
          intro word call found
          have inside := (List.getElem?_eq_some_iff.mp found).1
          rw [List.getElem?_append_left inside, found]
        have earlier := inductionHypothesis rfl
          (fun word call found => place word call (isCall word call found))
          (fun word call found => lanes word call (isCall word call found))
        have now := bytes_eq (place _ _ isLast) (lanes _ _ isLast)
        rw [List.flatMap_append, earlier, List.flatMap_singleton, now,
          Nat.mul_succ, List.range_add, List.filter_append, List.map_append]
  rw [all, range_filter_inBurst fits, burstBytes, List.map_map]
  apply List.map_congr_left
  intro idx _
  rw [Function.comp_apply, BitVec.ofNat_add, BitVec.add_assoc]

/-! ## Byte enables -/

/-- The byte enables of a word of a burst. -/
def pcixBen (burst : WriteBurst) (burstLen : Nat) : BitVec 32 :=
  if burstLen = 0 then burst.firstBen
  else if burstLen + 1 = burst.wordCount then burst.lastBen
  else 0

/-- The parameters of a burst on the 32-bit data path. -/
def burst4 (addr : BitVec 64) (byteCount : Nat) : WriteBurst where
  wordSize := 4
  wordCount := (addr.toNat % 4 + byteCount + 3) / 4
  firstBen := (makeBen4x addr byteCount).1
  lastBen := (makeBen4x addr byteCount).2

/-- The parameters of a burst on the 64-bit data path. -/
def burst8 (addr : BitVec 64) (byteCount : Nat) : WriteBurst where
  wordSize := 8
  wordCount := (addr.toNat % 8 + byteCount + 7) / 8
  firstBen := (makeBen8x addr byteCount).1
  lastBen := (makeBen8x addr byteCount).2

theorem makeBen4x_first
    {addr : BitVec 64}
    {byteCount lane : Nat}
    (positive : 1 ≤ byteCount)
    (isLane : lane < 4) :
    (makeBen4x addr byteCount).1.getLsbD lane = false ↔
      InBurst (addr.toNat % 4) byteCount lane := by
  have first : addr.toNat % 4 < 4 := Nat.mod_lt _ (by decide)
  rw [InBurst]
  by_cases few : byteCount < 4
  · unfold makeBen4x
    interval_cases addr.toNat % 4 <;> interval_cases byteCount <;>
      interval_cases lane <;> decide
  · obtain ⟨rest, rfl⟩ : ∃ rest, byteCount = rest + 4 :=
      ⟨byteCount - 4, by omega⟩
    unfold makeBen4x
    interval_cases addr.toNat % 4 <;> interval_cases lane <;> simp <;> omega

theorem makeBen4x_last
    {addr : BitVec 64}
    {byteCount lane : Nat}
    (isLane : lane < 4) :
    (makeBen4x addr byteCount).2.getLsbD lane = false ↔
      (addr.toNat % 4 + byteCount) % 4 = 0 ∨
        lane < (addr.toNat % 4 + byteCount) % 4 := by
  have small : (addr.toNat % 4 + byteCount) % 4 < 4 := Nat.mod_lt _ (by decide)
  unfold makeBen4x
  simp only
  interval_cases (addr.toNat % 4 + byteCount) % 4 <;> interval_cases lane <;>
    decide

/-- The lanes from a place on, or before it. -/
theorem lanes_from
    {place lane : Nat}
    (inside : place < 8)
    (isLane : lane < 8) :
    ((0xff : BitVec 32) &&& BitVec.allOnes 32 <<< place).getLsbD lane =
        decide (place ≤ lane) ∧
      ((0xff : BitVec 32) &&& ~~~(BitVec.allOnes 32 <<< place)).getLsbD lane =
        decide (lane < place) := by
  interval_cases place <;> interval_cases lane <;> decide

/-- The second mask is empty if the burst ends with a word. -/
theorem endMask_lane
    {rest lane : Nat}
    (inside : rest < 8)
    (isLane : lane < 8) :
    (if (0xff : BitVec 32) &&& BitVec.allOnes 32 <<< rest = 0xff then 0
      else (0xff : BitVec 32) &&& BitVec.allOnes 32 <<< rest).getLsbD lane =
        false ↔
      rest = 0 ∨ lane < rest := by
  interval_cases rest <;> interval_cases lane <;> decide

theorem makeBen8x_last
    {addr : BitVec 64}
    {byteCount lane : Nat}
    (isLane : lane < 8) :
    (makeBen8x addr byteCount).2.getLsbD lane = false ↔
      (addr.toNat % 8 + byteCount) % 8 = 0 ∨
        lane < (addr.toNat % 8 + byteCount) % 8 := by
  have inside : (addr.toNat + byteCount) % 8 < 8 := Nat.mod_lt _ (by decide)
  rw [Nat.mod_add_mod, ← endMask_lane inside isLane, makeBen8x]
  split <;> rfl

theorem makeBen8x_first
    {addr : BitVec 64}
    {byteCount lane : Nat}
    (positive : 1 ≤ byteCount)
    (isLane : lane < 8) :
    (makeBen8x addr byteCount).1.getLsbD lane = false ↔
      InBurst (addr.toNat % 8) byteCount lane := by
  have first : addr.toNat % 8 < 8 := Nat.mod_lt _ (by decide)
  have last : (makeBen8x addr byteCount).2.getLsbD lane = false ↔ _ :=
    makeBen8x_last isLane
  have start := (lanes_from first isLane).2
  by_cases short : addr.toNat % 8 + byteCount < 8
  · have both : (makeBen8x addr byteCount).1 =
        ((0xff : BitVec 32) &&& ~~~(BitVec.allOnes 32 <<< (addr.toNat % 8))) |||
          (makeBen8x addr byteCount).2 := by
      simp only [makeBen8x, short, if_true]
    rw [both, BitVec.getLsbD_or, start, Bool.or_eq_false_iff, last, InBurst,
      decide_eq_false_iff_not]
    omega
  · have one : (makeBen8x addr byteCount).1 =
        (0xff : BitVec 32) &&& ~~~(BitVec.allOnes 32 <<< (addr.toNat % 8)) := by
      simp only [makeBen8x, short, if_false]
    rw [one, start, InBurst, decide_eq_false_iff_not]
    omega

/-- A word on the 32-bit data path. -/
theorem pcixBen_burst4
    {addr : BitVec 64}
    {byteCount word lane : Nat}
    (positive : 1 ≤ byteCount)
    (inside : word < (burst4 addr byteCount).wordCount)
    (isLane : lane < 4) :
    (pcixBen (burst4 addr byteCount) word).getLsbD lane = false ↔
      InBurst (addr.toNat % 4) byteCount (4 * word + lane) := by
  have first : addr.toNat % 4 < 4 := Nat.mod_lt _ (by decide)
  have count : (burst4 addr byteCount).wordCount =
      (addr.toNat % 4 + byteCount + 3) / 4 := rfl
  by_cases isFirst : word = 0
  · subst isFirst
    rw [Nat.mul_zero, Nat.zero_add]
    exact makeBen4x_first positive isLane
  · rw [pcixBen, if_neg isFirst, InBurst]
    by_cases isLast : word + 1 = (burst4 addr byteCount).wordCount
    · rw [if_pos isLast]
      refine (makeBen4x_last isLane).trans ?_
      omega
    · rw [if_neg isLast]
      refine iff_of_true BitVec.getLsbD_zero ?_
      omega

/-- A word on the 64-bit data path. -/
theorem pcixBen_burst8
    {addr : BitVec 64}
    {byteCount word lane : Nat}
    (positive : 1 ≤ byteCount)
    (inside : word < (burst8 addr byteCount).wordCount)
    (isLane : lane < 8) :
    (pcixBen (burst8 addr byteCount) word).getLsbD lane = false ↔
      InBurst (addr.toNat % 8) byteCount (8 * word + lane) := by
  have first : addr.toNat % 8 < 8 := Nat.mod_lt _ (by decide)
  have count : (burst8 addr byteCount).wordCount =
      (addr.toNat % 8 + byteCount + 7) / 8 := rfl
  by_cases isFirst : word = 0
  · subst isFirst
    rw [Nat.mul_zero, Nat.zero_add]
    exact makeBen8x_first positive isLane
  · rw [pcixBen, if_neg isFirst, InBurst]
    by_cases isLast : word + 1 = (burst8 addr byteCount).wordCount
    · rw [if_pos isLast]
      refine (makeBen8x_last isLane).trans ?_
      omega
    · rw [if_neg isLast]
      refine iff_of_true BitVec.getLsbD_zero ?_
      omega

/-! ## Words -/

/-- The calls for one word of a burst, with the byte enables of their lanes. -/
def wordCalls
    (burst : WriteBurst)
    (addr : BitVec 64)
    (ben : BitVec 32)
    (data : BitVec 64) : List Recv32Call :=
  if burst.wordSize = 4 then
    [⟨addr &&& ~~~3, data.setWidth 32, ben⟩]
  else
    [⟨addr &&& ~~~7, data.setWidth 32, ben &&& 15⟩,
      ⟨(addr &&& ~~~7) + 4, (data >>> 32).setWidth 32, (ben >>> 4) &&& 15⟩]

/-- The calls for the first words of a burst. -/
structure BurstCalls
    (burst : WriteBurst)
    (addr : BitVec 64)
    (byteCount words : Nat)
    (calls : List Recv32Call) : Prop where
  length : calls.length = words * (burst.wordSize / 4)
  place : ∀ idx call, calls[idx]? = some call →
    call.addr = (addr &&& ~~~(BitVec.ofNat 64 (burst.wordSize - 1))) +
      BitVec.ofNat 64 (4 * idx)
  lanes : ∀ idx call, calls[idx]? = some call → ∀ lane, lane < 4 →
    (call.ben.getLsbD lane = false ↔
      InBurst (addr.toNat % burst.wordSize) byteCount (4 * idx + lane))

theorem BurstCalls.none
    (burst : WriteBurst)
    (addr : BitVec 64)
    (byteCount : Nat) :
    BurstCalls burst addr byteCount 0 [] where
  length := by rw [Nat.zero_mul]; rfl
  place := nofun
  lanes := nofun

/-- One of the two data paths. -/
def IsBurst (burst : WriteBurst) (addr : BitVec 64) (byteCount : Nat) : Prop :=
  burst = burst4 addr byteCount ∨ burst = burst8 addr byteCount

/-- The low bits of an address are cleared. -/
theorem align_toNat
    (low : Nat)
    (addr : BitVec 64) :
    (addr &&& ~~~(BitVec.ofNat 64 (2 ^ low - 1))).toNat =
      addr.toNat / 2 ^ low * 2 ^ low := by
  have shifted : addr &&& ~~~(BitVec.ofNat 64 (2 ^ low - 1)) =
      (addr >>> low) <<< low := by
    apply BitVec.eq_of_getLsbD_eq
    intro bit inside
    rw [BitVec.getLsbD_and, BitVec.getLsbD_not, BitVec.getLsbD_ofNat,
      Nat.testBit_two_pow_sub_one, BitVec.getLsbD_shiftLeft,
      BitVec.getLsbD_ushiftRight]
    by_cases isLow : bit < low
    · simp [isLow, inside]
    · have sum : low + (bit - low) = bit := by omega
      simp [isLow, inside, sum]
  rw [shifted, BitVec.toNat_shiftLeft, BitVec.toNat_ushiftRight,
    Nat.shiftRight_eq_div_pow, Nat.shiftLeft_eq]
  apply Nat.mod_eq_of_lt
  exact Nat.lt_of_le_of_lt (Nat.div_mul_le_self _ _) addr.isLt

/-- The address of a word, and what is left of an address. -/
theorem align_word
    (low : Nat)
    (isLow : low = 2 ∨ low = 3)
    (addr : BitVec 64)
    (word : Nat) :
    (addr + BitVec.ofNat 64 (2 ^ low * word)) &&&
        ~~~(BitVec.ofNat 64 (2 ^ low - 1)) =
      (addr &&& ~~~(BitVec.ofNat 64 (2 ^ low - 1))) +
        BitVec.ofNat 64 (2 ^ low * word) := by
  apply BitVec.eq_of_toNat_eq
  rw [align_toNat, BitVec.toNat_add, BitVec.toNat_add, align_toNat,
    BitVec.toNat_ofNat]
  have bounded := addr.isLt
  rcases isLow with rfl | rfl
  · omega
  · omega

theorem align_rest
    (low : Nat)
    (isLow : low = 2 ∨ low = 3)
    (addr : BitVec 64) :
    (addr &&& ~~~(BitVec.ofNat 64 (2 ^ low - 1))) +
      BitVec.ofNat 64 (addr.toNat % 2 ^ low) = addr := by
  apply BitVec.eq_of_toNat_eq
  rw [BitVec.toNat_add, align_toNat, BitVec.toNat_ofNat]
  have bounded := addr.isLt
  rcases isLow with rfl | rfl
  · omega
  · omega

/-- The lanes of the two halves of a word. -/
theorem half_lane
    (ben : BitVec 32)
    {lane : Nat}
    (isLane : lane < 4) :
    (ben &&& 15).getLsbD lane = ben.getLsbD lane ∧
      ((ben >>> 4) &&& 15).getLsbD lane = ben.getLsbD (4 + lane) := by
  have mask : (15 : BitVec 32).getLsbD lane = true := by
    interval_cases lane <;> rfl
  rw [BitVec.getLsbD_and, BitVec.getLsbD_and, mask, Bool.and_true,
    Bool.and_true, BitVec.getLsbD_ushiftRight]
  exact ⟨rfl, rfl⟩

theorem burst4_calls (addr : BitVec 64) (byteCount : Nat) :
    (burst4 addr byteCount).wordSize / 4 = 1 := by
  simp only [burst4, Nat.reduceDiv]

theorem burst8_calls (addr : BitVec 64) (byteCount : Nat) :
    (burst8 addr byteCount).wordSize / 4 = 2 := by
  simp only [burst8, Nat.reduceDiv]

theorem wordCalls_burst4
    (start : BitVec 64)
    (byteCount : Nat)
    (addr data : BitVec 64)
    (ben : BitVec 32) :
    wordCalls (burst4 start byteCount) addr ben data =
      [⟨addr &&& ~~~3, data.setWidth 32, ben⟩] :=
  if_pos rfl

theorem wordCalls_burst8
    (start : BitVec 64)
    (byteCount : Nat)
    (addr data : BitVec 64)
    (ben : BitVec 32) :
    wordCalls (burst8 start byteCount) addr ben data =
      [⟨addr &&& ~~~7, data.setWidth 32, ben &&& 15⟩,
        ⟨(addr &&& ~~~7) + 4, (data >>> 32).setWidth 32,
          (ben >>> 4) &&& 15⟩] := by
  have wide : ¬ 8 = 4 := by decide
  exact if_neg wide

/-- A call is an earlier one or one of the last word. -/
theorem getElem?_append_cases
    {calls fresh : List Recv32Call}
    {idx : Nat}
    {call : Recv32Call}
    (found : (calls ++ fresh)[idx]? = some call) :
    calls[idx]? = some call ∨
      ∃ later, idx = calls.length + later ∧ fresh[later]? = some call := by
  rcases Nat.lt_or_ge idx calls.length with before | after
  · rw [List.getElem?_append_left before] at found
    exact .inl found
  · rw [List.getElem?_append_right after] at found
    exact .inr ⟨idx - calls.length, (Nat.add_sub_cancel' after).symm, found⟩

/-- The calls of one more word are at their places. -/
theorem BurstCalls.append
    {burst : WriteBurst}
    {addr : BitVec 64}
    {byteCount word : Nat}
    {calls fresh : List Recv32Call}
    (earlier : BurstCalls burst addr byteCount word calls)
    (length : fresh.length = burst.wordSize / 4)
    (place : ∀ later call, fresh[later]? = some call →
      call.addr = (addr &&& ~~~(BitVec.ofNat 64 (burst.wordSize - 1))) +
        BitVec.ofNat 64 (4 * (calls.length + later)))
    (lanes : ∀ later call, fresh[later]? = some call → ∀ lane, lane < 4 →
      (call.ben.getLsbD lane = false ↔
        InBurst (addr.toNat % burst.wordSize) byteCount
          (4 * (calls.length + later) + lane))) :
    BurstCalls burst addr byteCount (word + 1) (calls ++ fresh) where
  length := by
    rw [List.length_append, earlier.length, length, Nat.succ_mul]
  place := by
    intro idx call found
    rcases getElem?_append_cases found with before | ⟨later, rfl, now⟩
    · exact earlier.place idx call before
    · exact place later call now
  lanes := by
    intro idx call found
    rcases getElem?_append_cases found with before | ⟨later, rfl, now⟩
    · exact earlier.lanes idx call before
    · exact lanes later call now

/-- One more word on the 32-bit data path. -/
theorem BurstCalls.word4
    {addr : BitVec 64}
    {byteCount word : Nat}
    {calls : List Recv32Call}
    (positive : 1 ≤ byteCount)
    (inside : word < (burst4 addr byteCount).wordCount)
    (earlier : BurstCalls (burst4 addr byteCount) addr byteCount word calls)
    (data : BitVec 64) :
    BurstCalls (burst4 addr byteCount) addr byteCount (word + 1)
      (calls ++ wordCalls (burst4 addr byteCount)
        (addr + BitVec.ofNat 64 (4 * word))
        (pcixBen (burst4 addr byteCount) word) data) := by
  have count : calls.length = word := by
    rw [earlier.length, burst4_calls, Nat.mul_one]
  have aligned := align_word 2 (.inl rfl) addr word
  rw [wordCalls_burst4]
  apply earlier.append
  · rw [burst4_calls]
    rfl
  · intro later call found
    obtain ⟨rfl, rfl⟩ : later = 0 ∧ _ = call := by
      cases later with
      | zero => exact ⟨rfl, Option.some.inj found⟩
      | succ later => cases found
    rw [count, Nat.add_zero]
    exact aligned
  · intro later call found lane isLane
    obtain ⟨rfl, rfl⟩ : later = 0 ∧ _ = call := by
      cases later with
      | zero => exact ⟨rfl, Option.some.inj found⟩
      | succ later => cases found
    rw [count, Nat.add_zero]
    exact pcixBen_burst4 positive inside isLane

/-- One more word on the 64-bit data path. -/
theorem BurstCalls.word8
    {addr : BitVec 64}
    {byteCount word : Nat}
    {calls : List Recv32Call}
    (positive : 1 ≤ byteCount)
    (inside : word < (burst8 addr byteCount).wordCount)
    (earlier : BurstCalls (burst8 addr byteCount) addr byteCount word calls)
    (data : BitVec 64) :
    BurstCalls (burst8 addr byteCount) addr byteCount (word + 1)
      (calls ++ wordCalls (burst8 addr byteCount)
        (addr + BitVec.ofNat 64 (8 * word))
        (pcixBen (burst8 addr byteCount) word) data) := by
  have count : 4 * calls.length = 8 * word := by
    have length := earlier.length
    rw [burst8_calls] at length
    omega
  have aligned := align_word 3 (.inr rfl) addr word
  rw [wordCalls_burst8]
  apply earlier.append
  · rw [burst8_calls]
    rfl
  · intro later call found
    rw [Nat.mul_add, count]
    match later with
    | 0 =>
        obtain rfl := Option.some.inj found
        exact aligned
    | 1 =>
        obtain rfl := Option.some.inj found
        rw [BitVec.ofNat_add, ← BitVec.add_assoc]
        exact congrArg (· + 4) aligned
    | _ + 2 => cases found
  · intro later call found lane isLane
    have halves := half_lane (pcixBen (burst8 addr byteCount) word) isLane
    rw [Nat.mul_add, count]
    match later with
    | 0 =>
        obtain rfl := Option.some.inj found
        have low : lane < 8 := by omega
        rw [halves.1]
        exact pcixBen_burst8 positive inside low
    | 1 =>
        obtain rfl := Option.some.inj found
        have high : 4 + lane < 8 := by omega
        rw [halves.2, Nat.add_assoc]
        exact pcixBen_burst8 positive inside high
    | _ + 2 => cases found

/-- One more word of a burst. -/
theorem BurstCalls.word
    {burst : WriteBurst}
    {addr : BitVec 64}
    {byteCount word : Nat}
    {calls : List Recv32Call}
    (isBurst : IsBurst burst addr byteCount)
    (positive : 1 ≤ byteCount)
    (inside : word < burst.wordCount)
    (earlier : BurstCalls burst addr byteCount word calls)
    (data : BitVec 64) :
    BurstCalls burst addr byteCount (word + 1)
      (calls ++ wordCalls burst
        (addr + BitVec.ofNat 64 (burst.wordSize * word))
        (pcixBen burst word) data) := by
  rcases isBurst with rfl | rfl
  · exact earlier.word4 positive inside data
  · exact earlier.word8 positive inside data

/-- The calls for all words enable the bytes of the burst. -/
theorem BurstCalls.bytes
    {burst : WriteBurst}
    {addr : BitVec 64}
    {byteCount : Nat}
    {calls : List Recv32Call}
    (isBurst : IsBurst burst addr byteCount)
    (all : BurstCalls burst addr byteCount burst.wordCount calls) :
    calls.flatMap Recv32Call.bytes = burstBytes addr byteCount := by
  rcases isBurst with rfl | rfl
  · have count : (burst4 addr byteCount).wordCount =
        (addr.toNat % 4 + byteCount + 3) / 4 := rfl
    have length := all.length
    rw [burst4_calls] at length
    have fits : addr.toNat % 4 + byteCount ≤ 4 * calls.length := by omega
    rw [flatMap_bytes_eq rfl fits all.place all.lanes]
    exact congrArg (burstBytes · byteCount) (align_rest 2 (.inl rfl) addr)
  · have count : (burst8 addr byteCount).wordCount =
        (addr.toNat % 8 + byteCount + 7) / 8 := rfl
    have length := all.length
    rw [burst8_calls] at length
    have fits : addr.toNat % 8 + byteCount ≤ 4 * calls.length := by omega
    rw [flatMap_bytes_eq rfl fits all.place all.lanes]
    exact congrArg (burstBytes · byteCount) (align_rest 3 (.inr rfl) addr)

end Simbus.Pci
