import Simbus.P2p.Client
import Mathlib

/-!
# Vectors of another width

The vector of an UNTIL may be shorter or longer than the local one.  `send_ready_p2p`
counts the places from the local width, so the bits of such a vector are shifted.
-/

namespace Simbus.P2p

open FourValued Axi4

/-- Bit for bit the received vector, with X above it. -/
def Decodes (width : Nat) (text : Text) (data : Bits) : Prop :=
  (∀ idx < min text.length width,
    data idx = text.getD (text.length - 1 - idx) .x) ∧
  ∀ idx < width, text.length ≤ idx → data idx = .x

/--
A text that is not changed by the shift: it has the local width, or it is longer
and begins as it ends, or it is shorter and all bits are X, as those are below.
-/
def ShiftsToItself (width : Nat) (text : Text) (data : Bits) : Prop :=
  text.length = width ∨
    width < text.length ∧ text.take width = text.drop (text.length - width) ∨
    text.length < width ∧ (∀ value ∈ text, value = .x) ∧
      ∀ idx < min (width - text.length) text.length, data idx = .x

section

variable {width : Nat}
variable {text : Text}
variable {data : Bits}

/-- A bit that is taken from the text. -/
theorem decodeData_text
    {idx : Nat}
    (inside : idx < width)
    (reached : width - idx ≤ text.length) :
    decodeData width text data idx = text.getD (width - 1 - idx) .x := by
  rw [decodeData, if_pos inside, if_pos reached]

theorem decodes_same (same : text.length = width) :
    Decodes width text (decodeData width text data) := by
  subst same
  constructor
  · intro idx inside
    rw [Nat.min_self] at inside
    exact decodeData_text inside (Nat.sub_le _ _)
  · intro idx inside above
    omega

theorem decodes_longer_iff (longer : width < text.length) :
    Decodes width text (decodeData width text data) ↔
      text.take width = text.drop (text.length - width) := by
  have taken {idx : Nat} (inside : idx < width) :
      decodeData width text data idx = text.getD (width - 1 - idx) .x :=
    decodeData_text inside (by omega)
  constructor
  · rintro ⟨bits, _⟩
    apply List.ext_getElem
    · rw [List.length_take, List.length_drop]
      omega
    · intro place inTake inDrop
      rw [List.length_take] at inTake
      have bit := bits (width - 1 - place) (by omega)
      rw [taken (by omega)] at bit
      have first : width - 1 - (width - 1 - place) = place := by omega
      have last : text.length - 1 - (width - 1 - place) =
          text.length - width + place := by omega
      rw [first, last, List.getD_eq_getElem _ _ (by omega),
        List.getD_eq_getElem _ _ (by omega)] at bit
      rw [List.getElem_take, List.getElem_drop]
      exact bit
  · intro same
    refine ⟨fun idx inside => ?_, fun idx inside above => by omega⟩
    have place : width - 1 - idx < width := by omega
    have bit := congrArg (fun values => values.getD (width - 1 - idx) .x) same
    have last : text.length - width + (width - 1 - idx) =
        text.length - 1 - idx := by omega
    rw [taken (by omega)]
    simp only [List.getD_eq_getElem?_getD, List.getElem?_take_of_lt place,
      List.getElem?_drop, last] at bit
    rw [List.getD_eq_getElem?_getD, List.getD_eq_getElem?_getD]
    exact bit

/-- In a short vector X goes from the top down to every bit. -/
theorem decodes_shorter_allX
    (shorter : text.length < width)
    (decodes : Decodes width text (decodeData width text data))
    (place : Nat) :
    text.getD place .x = .x := by
  obtain ⟨bits, above⟩ := decodes
  induction place using Nat.strongRecOn with
  | ind place inductionHypothesis =>
      by_cases inside : place < text.length
      · have taken : decodeData width text data (width - 1 - place) =
            text.getD place .x := by
          rw [decodeData_text (by omega) (by omega)]
          congr 1
          omega
        rw [← taken]
        by_cases isAbove : text.length ≤ width - 1 - place
        · exact above _ (by omega) isAbove
        · rw [bits _ (by omega)]
          exact inductionHypothesis _ (by omega)
      · rw [List.getD_eq_default _ _ (by omega)]

theorem decodes_shorter_iff (shorter : text.length < width) :
    Decodes width text (decodeData width text data) ↔
      (∀ value ∈ text, value = .x) ∧
        ∀ idx < min (width - text.length) text.length, data idx = .x := by
  constructor
  · intro decodes
    have allX := decodes_shorter_allX shorter decodes
    constructor
    · intro value member
      obtain ⟨place, inside, rfl⟩ := List.getElem_of_mem member
      rw [← List.getD_eq_getElem text .x inside]
      exact allX place
    · intro idx below
      have bit := decodes.1 idx (by omega)
      rw [allX, decodeData, if_pos (by omega), if_neg (by omega),
        if_neg (by omega)] at bit
      exact bit
  · rintro ⟨allX, below⟩
    have isX (place : Nat) : text.getD place .x = .x := by
      by_cases inside : place < text.length
      · rw [List.getD_eq_getElem _ _ inside]
        exact allX _ (List.getElem_mem inside)
      · rw [List.getD_eq_default _ _ (by omega)]
    have decodedX {idx : Nat} (inside : idx < width) :
        decodeData width text data idx = .x := by
      rw [decodeData, if_pos inside]
      split
      · exact isX _
      split
      · rfl
      · exact below idx (by omega)
    refine ⟨fun idx inside => ?_, fun idx inside _ => decodedX inside⟩
    rw [decodedX (by omega), isX]

theorem decodes_iff :
    Decodes width text (decodeData width text data) ↔
      ShiftsToItself width text data := by
  unfold ShiftsToItself
  rcases Nat.lt_trichotomy text.length width with shorter | same | longer
  · rw [decodes_shorter_iff shorter]
    constructor
    · exact fun condition => .inr (.inr ⟨shorter, condition⟩)
    · rintro (same | ⟨longer, _⟩ | ⟨_, condition⟩)
      · omega
      · omega
      · exact condition
  · exact ⟨fun _ => .inl same, fun _ => decodes_same same⟩
  · rw [decodes_longer_iff longer]
    constructor
    · exact fun condition => .inr (.inl ⟨longer, condition⟩)
    · rintro (same | ⟨_, condition⟩ | ⟨shorter, _⟩)
      · omega
      · exact condition
      · omega

end

/-- A vector is decoded bit for bit if and only if the shift does not change it. -/
theorem receive_vector_iff
    {bus : SimbusP2p}
    {text : Text}
    (some : 0 < text.length) :
    ((∃ bus' ∈ bus.receive ("DATA_I", text),
        Decodes bus.widthI text bus'.dataI) ↔
      ShiftsToItself bus.widthI text bus.dataI) ∧
    ((∃ bus' ∈ bus.receive ("DATA_O", text),
        Decodes bus.widthO text bus'.dataO) ↔
      ShiftsToItself bus.widthO text bus.dataO) := by
  have dataI : bus.receive ("DATA_I", text) =
      .some { bus with
        dataI := decodeData bus.widthI text bus.dataI } :=
    if_pos some
  have dataO : bus.receive ("DATA_O", text) =
      .some { bus with
        dataO := decodeData bus.widthO text bus.dataO } :=
    if_pos some
  rw [dataI, dataO, ← decodes_iff, ← decodes_iff]
  simp only [Option.mem_def, Option.some.injEq, exists_eq_left', and_self]

/-- A vector of the local width. -/
theorem receive_sameWidth :
    ∃ bus' ∈ (SimbusP2p.connect 2 0 1).receive ("DATA_I", [.one, .zero]),
      Decodes 2 [.one, .zero] bus'.dataI :=
  (receive_vector_iff (by decide)).1.mpr (.inl rfl)

/-- A vector of one bit comes to the top of two bits. -/
theorem receive_oneBit :
    ¬ ∃ bus' ∈ (SimbusP2p.connect 2 0 1).receive ("DATA_I", [.one]),
      Decodes 2 [.one] bus'.dataI := by
  rintro ⟨bus', isReceived, bits, _⟩
  cases isReceived
  exact absurd (bits 0 (by decide)) (by decide)

end Simbus.P2p
