import Mathlib

/-!
# Rounding off decimal digits

Digits of a number can be rounded off one by one or all at once.  Digit by digit the
number that is added before the division is 5...5 and not 50...0, so the results
differ exactly for the endings from 4...45 to 49...9.
-/

namespace DecimalRounding

/-- Round off digits one by one, with ties upward. -/
def roundEach : Nat → Nat → Nat
  | 0, number => number
  | digits + 1, number => roundEach digits ((number + 5) / 10)

/-- Round off digits at once, with ties upward. -/
def roundOnce (digits number : Nat) : Nat :=
  (number + 10 ^ digits / 2) / 10 ^ digits

/-- The number 5...5. -/
def fives : Nat → Nat
  | 0 => 0
  | digits + 1 => 10 * fives digits + 5

/-- The last digits are rounded up one by one, but not at once. -/
def RoundsTwice (digits number : Nat) : Prop :=
  10 ^ digits ≤ number % 10 ^ digits + fives digits ∧
    number % 10 ^ digits + 10 ^ digits / 2 < 10 ^ digits

instance (digits number : Nat) : Decidable (RoundsTwice digits number) :=
  inferInstanceAs (Decidable (_ ∧ _))

theorem nine_fives (digits : Nat) :
    9 * fives digits + 5 = 5 * 10 ^ digits := by
  induction digits with
  | zero =>
      rfl
  | succ digits inductionHypothesis =>
      rw [fives, Nat.pow_succ]
      omega

theorem fives_lt (digits : Nat) : fives digits < 10 ^ digits := by
  have nine := nine_fives digits
  have positive : 0 < 10 ^ digits := Nat.pow_pos (by decide)
  omega

theorem half_le_fives (digits : Nat) : 10 ^ digits / 2 ≤ fives digits := by
  cases digits with
  | zero =>
      decide
  | succ digits =>
      have nine := nine_fives digits
      rw [fives, Nat.pow_succ]
      omega

/-- Rounding digit by digit adds 5...5. -/
theorem roundEach_eq (digits number : Nat) :
    roundEach digits number = (number + fives digits) / 10 ^ digits := by
  induction digits generalizing number with
  | zero =>
      rw [roundEach, fives, Nat.pow_zero, Nat.add_zero, Nat.div_one]
  | succ digits inductionHypothesis =>
      calc roundEach (digits + 1) number
          = ((number + 5) / 10 + fives digits) / 10 ^ digits :=
            inductionHypothesis _
        _ = (number + 5 + 10 * fives digits) / 10 / 10 ^ digits := by
            rw [Nat.add_mul_div_left _ _ (by decide)]
        _ = (number + (10 * fives digits + 5)) / (10 * 10 ^ digits) := by
            rw [Nat.div_div_eq_div_mul, Nat.add_assoc, Nat.add_comm 5]
        _ = (number + fives (digits + 1)) / 10 ^ (digits + 1) := by
            rw [fives, Nat.pow_succ']

/-- Quotients after the addition of two numbers below the divisor. -/
theorem add_div_eq_iff
    {number lower upper divisor : Nat}
    (ordered : lower ≤ upper)
    (bounded : upper < divisor) :
    (number + upper) / divisor = (number + lower) / divisor ↔
      ¬ (divisor ≤ number % divisor + upper ∧
        number % divisor + lower < divisor) := by
  have positive : 0 < divisor := Nat.lt_of_le_of_lt (Nat.zero_le _) bounded
  have remainder : number % divisor < divisor := Nat.mod_lt _ positive
  have quotient (added : Nat) : (number + added) / divisor =
      number / divisor + (number % divisor + added) / divisor := by
    conv_lhs => rw [← Nat.div_add_mod number divisor]
    rw [Nat.add_assoc, Nat.mul_add_div positive]
  have step {added : Nat} (small : added < divisor) :
      (number % divisor + added) / divisor =
        if divisor ≤ number % divisor + added then 1 else 0 := by
    split
    · rename_i above
      rw [Nat.div_eq_sub_div positive above, Nat.div_eq_of_lt (by omega)]
    · rename_i below
      exact Nat.div_eq_of_lt (by omega)
  rw [quotient, quotient, step bounded,
    step (Nat.lt_of_le_of_lt ordered bounded)]
  split <;> split <;> omega

/-- When both ways of rounding agree. -/
theorem roundEach_eq_roundOnce_iff (digits number : Nat) :
    roundEach digits number = roundOnce digits number ↔
      ¬ RoundsTwice digits number := by
  rw [roundEach_eq, roundOnce]
  exact add_div_eq_iff (half_le_fives digits) (fives_lt digits)

/-- Rounding at once is rounding to the nearest integer. -/
theorem round_div (digits number : Nat) :
    round ((number : ℚ) / 10 ^ digits) = (roundOnce digits number : ℤ) := by
  let divisor := 10 ^ digits
  let half := divisor / 2
  have positive : 0 < divisor := Nat.pow_pos (by decide)
  have positiveRat : (0 : ℚ) < divisor := by exact_mod_cast positive
  have below : roundOnce digits number * divisor ≤ number + half :=
    Nat.div_mul_le_self _ _
  have above : number + half < (roundOnce digits number + 1) * divisor :=
    Nat.lt_mul_of_div_lt (Nat.lt_succ_self _) positive
  have isHalf : 2 * half ≤ divisor ∧ divisor ≤ 2 * half + 1 := by omega
  have belowRat : (roundOnce digits number : ℚ) * divisor ≤ number + half := by
    exact_mod_cast below
  have aboveRat : (number : ℚ) + half + 1 ≤
      (roundOnce digits number + 1) * divisor := by
    exact_mod_cast above
  have halfBelow : 2 * (half : ℚ) ≤ divisor := by exact_mod_cast isHalf.1
  have halfAbove : (divisor : ℚ) ≤ 2 * half + 1 := by exact_mod_cast isHalf.2
  have isDivisor : (10 : ℚ) ^ digits = divisor := by
    simp [divisor]
  rw [round_eq, Int.floor_eq_iff, isDivisor]
  constructor
  · rw [← sub_le_iff_le_add, le_div_iff₀ positiveRat]
    push_cast
    linarith
  · rw [← lt_sub_iff_add_lt, div_lt_iff₀ positiveRat]
    push_cast
    linarith

theorem fives_add (digits more : Nat) :
    fives (digits + more) = fives digits * 10 ^ more + fives more := by
  induction more with
  | zero =>
      rw [fives, Nat.pow_zero, Nat.mul_one, Nat.add_zero, Nat.add_zero]
  | succ more inductionHypothesis =>
      rw [← Nat.add_assoc, fives, fives, inductionHypothesis, Nat.pow_succ]
      ring

/-- A number with more digits behind the point is not rounded below. -/
theorem roundEach_mono_more
    {digits more number number' : Nat}
    (ordered : number * 10 ^ more ≤ number') :
    roundEach digits number ≤ roundEach (digits + more) number' := by
  rw [roundEach_eq, roundEach_eq]
  calc (number + fives digits) / 10 ^ digits
      = (number + fives digits) * 10 ^ more / (10 ^ digits * 10 ^ more) :=
        (Nat.mul_div_mul_right _ _ (Nat.pow_pos (by decide))).symm
    _ ≤ (number' + fives (digits + more)) / (10 ^ digits * 10 ^ more) := by
        refine Nat.div_le_div_right ?_
        rw [Nat.add_mul, fives_add]
        omega
    _ = (number' + fives (digits + more)) / 10 ^ (digits + more) := by
        rw [Nat.pow_add]

/-- A number with fewer digits behind the point is not rounded below either. -/
theorem roundEach_mono_fewer
    {digits more number number' : Nat}
    (ordered : number ≤ number' * 10 ^ more) :
    roundEach (digits + more) number ≤ roundEach digits number' := by
  rw [roundEach_eq, roundEach_eq]
  calc (number + fives (digits + more)) / 10 ^ (digits + more)
      ≤ (number' * 10 ^ more + fives (digits + more)) / 10 ^ (digits + more) :=
        Nat.div_le_div_right (Nat.add_le_add_right ordered _)
    _ = (10 ^ more * (number' + fives digits) + fives more) / 10 ^ more /
          10 ^ digits := by
        rw [Nat.div_div_eq_div_mul, fives_add, Nat.pow_add,
          Nat.mul_comm (10 ^ digits)]
        congr 1
        ring
    _ = (number' + fives digits) / 10 ^ digits := by
        rw [Nat.mul_add_div (Nat.pow_pos (by decide)),
          Nat.div_eq_of_lt (fives_lt more), Nat.add_zero]

/-- Rounding keeps the order of numbers with any digits behind the point. -/
theorem roundEach_mono
    {digits digits' number number' : Nat}
    (ordered : number * 10 ^ digits' ≤ number' * 10 ^ digits) :
    roundEach digits number ≤ roundEach digits' number' := by
  have positive (digits : Nat) : 0 < 10 ^ digits := Nat.pow_pos (by decide)
  rcases Nat.le_total digits digits' with le | le
  · obtain ⟨more, rfl⟩ := Nat.exists_eq_add_of_le le
    refine roundEach_mono_more ?_
    rw [Nat.pow_add, Nat.mul_comm (10 ^ digits), ← Nat.mul_assoc] at ordered
    exact Nat.le_of_mul_le_mul_right ordered (positive digits)
  · obtain ⟨more, rfl⟩ := Nat.exists_eq_add_of_le le
    refine roundEach_mono_fewer ?_
    rw [Nat.pow_add, Nat.mul_comm (10 ^ digits'), ← Nat.mul_assoc] at ordered
    exact Nat.le_of_mul_le_mul_right ordered (positive digits')

end DecimalRounding
