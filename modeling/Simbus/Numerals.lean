import Mathlib

/-!
# Decimal numbers at the start of a text

`strtoul` and `strtol` with base 10: white space, a sign and digits are read,
as far as they go.  Without any digit nothing is read at all.
-/

namespace Numerals

/-- `isspace` of the C locale. -/
def isSpace (byte : UInt8) : Bool :=
  byte == 32 || (9 ≤ byte && byte ≤ 13)

/-- `isdigit`. -/
def isDigit (byte : UInt8) : Bool :=
  48 ≤ byte && byte ≤ 57

/-- Whether there is a minus sign, and what follows the sign. -/
def afterSign : List UInt8 → Bool × List UInt8
  | 45 :: rest => (true, rest)
  | 43 :: rest => (false, rest)
  | text => (false, text)

/-- The number that some digits stand for. -/
def digitsValue (digits : List UInt8) : Nat :=
  digits.foldl (fun value digit => 10 * value + (digit.toNat - 48)) 0

/-- Whether a number is negative, its digits, and what follows them. -/
def scan (text : List UInt8) : Option (Bool × List UInt8 × List UInt8) :=
  let (negative, rest) := afterSign (text.dropWhile isSpace)
  match rest.takeWhile isDigit with
  | [] => none
  | digits => some (negative, digits, rest.dropWhile isDigit)

/-- `strtoul`: the number, or the largest one, and the end of what is read. -/
def strtoul (text : List UInt8) : BitVec 64 × List UInt8 :=
  match scan text with
  | none => (0, text)
  | some (negative, digits, rest) =>
      let value := digitsValue digits
      (if 2 ^ 64 ≤ value then
        BitVec.allOnes 64
      else if negative then
        -BitVec.ofNat 64 value
      else
        BitVec.ofNat 64 value,
        rest)

/-- `strtol`: the number within the range of `long`, and the end of it. -/
def strtol (text : List UInt8) : Int × List UInt8 :=
  match scan text with
  | none => (0, text)
  | some (negative, digits, rest) =>
      let value : Int := digitsValue digits
      (if negative then max (-value) (-2 ^ 63) else min value (2 ^ 63 - 1),
        rest)

/-! ## What is read -/

/-- A number with white space and a sign before it. -/
structure IsNumeral (text : List UInt8) : Prop where
  parts : ∃ space sign digits,
    text = space ++ sign ++ digits ∧
      (∀ byte ∈ space, isSpace byte = true) ∧
      (sign = [] ∨ sign = [43] ∨ sign = [45]) ∧
      digits ≠ [] ∧ ∀ byte ∈ digits, isDigit byte = true

/-- A text that no digit can continue. -/
def Ends (rest : List UInt8) : Prop :=
  ∀ byte ∈ rest.head?, isDigit byte = false

variable {text rest digits : List UInt8}
variable {negative : Bool}

theorem dropWhile_of_head
    {p : UInt8 → Bool}
    (stops : ∀ byte ∈ text.head?, p byte = false) :
    text.dropWhile p = text := by
  cases text with
  | nil =>
      rfl
  | cons byte rest =>
      rw [List.dropWhile_cons, stops byte rfl]
      rfl

theorem takeWhile_of_head
    {p : UInt8 → Bool}
    (stops : ∀ byte ∈ text.head?, p byte = false) :
    text.takeWhile p = [] := by
  cases text with
  | nil =>
      rfl
  | cons byte rest =>
      rw [List.takeWhile_cons, stops byte rfl]
      rfl

theorem isDigit_not_space
    {byte : UInt8}
    (digit : isDigit byte = true) :
    isSpace byte = false ∧ byte ≠ 43 ∧ byte ≠ 45 := by
  rw [isDigit, Bool.and_eq_true, decide_eq_true_iff, decide_eq_true_iff]
    at digit
  refine ⟨?_, ?_, ?_⟩
  · rw [Bool.eq_false_iff]
    intro space
    rw [isSpace, Bool.or_eq_true, beq_iff_eq, Bool.and_eq_true,
      decide_eq_true_iff, decide_eq_true_iff] at space
    rcases space with rfl | ⟨_, small⟩
    · revert digit
      decide
    · exact absurd (UInt8.le_trans digit.1 small) (by decide)
  · rintro rfl
    revert digit
    decide
  · rintro rfl
    revert digit
    decide

theorem afterSign_of_digit
    (starts : ∀ byte ∈ text.head?, isDigit byte = true) :
    afterSign text = (false, text) := by
  match text with
  | [] =>
      rfl
  | byte :: rest =>
      obtain ⟨_, notPlus, notMinus⟩ := isDigit_not_space (starts byte rfl)
      unfold afterSign
      split
      · rename_i same
        exact absurd (List.cons.inj same).1 notMinus
      · rename_i same
        exact absurd (List.cons.inj same).1 notPlus
      · rfl

/-- A number is read to its end. -/
theorem scan_numeral
    (isNumeral : IsNumeral text)
    (ends : Ends rest) :
    ∃ negative digits,
      scan (text ++ rest) = some (negative, digits, rest) := by
  obtain ⟨space, sign, digits, rfl, spaces, isSign, some_, allDigits⟩ :=
    isNumeral.parts
  obtain ⟨first, others, rfl⟩ := List.exists_cons_of_ne_nil some_
  have isFirst := allDigits first List.mem_cons_self
  have notSpace : ∀ byte ∈ (sign ++ (first :: others ++ rest)).head?,
      isSpace byte = false := by
    intro byte isHead
    rcases isSign with rfl | rfl | rfl
    · cases isHead
      exact (isDigit_not_space isFirst).1
    · cases isHead
      rfl
    · cases isHead
      rfl
  have trimmed : (space ++ sign ++ (first :: others) ++ rest).dropWhile
      isSpace = sign ++ (first :: others ++ rest) := by
    rw [List.append_assoc, List.append_assoc,
      List.dropWhile_append_of_pos spaces]
    exact dropWhile_of_head notSpace
  have signed : ∃ negative, afterSign (sign ++ (first :: others ++ rest)) =
      (negative, first :: others ++ rest) := by
    rcases isSign with rfl | rfl | rfl
    · refine ⟨false, afterSign_of_digit ?_⟩
      intro byte isHead
      cases isHead
      exact isFirst
    · exact ⟨false, rfl⟩
    · exact ⟨true, rfl⟩
  obtain ⟨negative, isSigned⟩ := signed
  refine ⟨negative, first :: others, ?_⟩
  have read : (first :: others ++ rest).takeWhile isDigit =
      first :: others := by
    rw [List.takeWhile_append_of_pos allDigits, takeWhile_of_head ends,
      List.append_nil]
  have left : (first :: others ++ rest).dropWhile isDigit = rest := by
    rw [List.dropWhile_append_of_pos allDigits]
    exact dropWhile_of_head ends
  rw [scan, trimmed, isSigned]
  simp only
  rw [read, left]

/-- What is read is a number. -/
theorem scan_eq_some
    (scanned : scan text = some (negative, digits, rest)) :
    ∃ numeral, IsNumeral numeral ∧ text = numeral ++ rest := by
  rw [scan] at scanned
  rcases signed : afterSign (text.dropWhile isSpace) with ⟨isNegative, left⟩
  rw [signed] at scanned
  simp only at scanned
  have split : ∃ sign, (sign = [] ∨ sign = [43] ∨ sign = [45]) ∧
      text.dropWhile isSpace = sign ++ left := by
    unfold afterSign at signed
    split at signed
    · rename_i shape
      cases signed
      exact ⟨[45], .inr (.inr rfl), shape⟩
    · rename_i shape
      cases signed
      exact ⟨[43], .inr (.inl rfl), shape⟩
    · cases signed
      exact ⟨[], .inl rfl, rfl⟩
  obtain ⟨sign, isSign, shape⟩ := split
  split at scanned
  · cases scanned
  · rename_i some_
    cases scanned
    refine ⟨text.takeWhile isSpace ++ sign ++ left.takeWhile isDigit,
      ⟨_, sign, _, rfl, ?_, isSign, some_, ?_⟩, ?_⟩
    · exact fun byte inside => List.mem_takeWhile_imp inside
    · exact fun byte inside => List.mem_takeWhile_imp inside
    · rw [List.append_assoc, List.takeWhile_append_dropWhile,
        List.append_assoc, ← shape, List.takeWhile_append_dropWhile]

end Numerals
