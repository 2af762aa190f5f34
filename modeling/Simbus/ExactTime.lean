import Mathlib
import Simbus.DecimalRounding
import Simbus.SimTime

/-!
# The value of a simulation time

A time stands for its mantissa times a power of ten.  While no mantissa overflows,
sums and comparisons of times of any exponents are exact.  The conversion to units
rounds off digit by digit.
-/

namespace Simbus

open DecimalRounding

/-! ## The loops -/

/-- `while (lower < exp) { mant *= 10; exp -= 1; }`. -/
def scaleWhile (lower exp : Int) (mant : BitVec 64) : BitVec 64 × Int :=
  if lower < exp then
    scaleWhile lower (exp - 1) (mant * 10)
  else
    (mant, exp)
termination_by (exp - lower).toNat

/-- `while (exp < upper) { mant += 5; mant /= 10; exp += 1; }`. -/
def roundWhile (upper exp : Int) (mant : BitVec 64) : BitVec 64 × Int :=
  if exp < upper then
    roundWhile upper (exp + 1) ((mant + 5) / 10)
  else
    (mant, exp)
termination_by (upper - exp).toNat

theorem stepsDown_eq_zero
    {exp lower : Int}
    (notAbove : exp ≤ lower) :
    stepsDown exp lower = 0 := by
  rw [stepsDown]
  omega

theorem scaleWhile_eq (lower exp : Int) (mant : BitVec 64) :
    scaleWhile lower exp mant =
      (rescale (stepsDown exp lower) mant, min exp lower) := by
  fun_induction scaleWhile lower exp mant with
  | case1 exp mant above inductionHypothesis =>
      have steps : stepsDown exp lower = stepsDown (exp - 1) lower + 1 := by
        rw [stepsDown, stepsDown]
        omega
      rw [inductionHypothesis, steps, rescale, min_eq_right (by omega),
        min_eq_right (by omega)]
  | case2 exp mant notAbove =>
      rw [stepsDown_eq_zero (by omega), rescale, min_eq_left (by omega)]

theorem roundWhile_eq (upper exp : Int) (mant : BitVec 64) :
    roundWhile upper exp mant =
      (roundOff (stepsDown upper exp) mant, max exp upper) := by
  fun_induction roundWhile upper exp mant with
  | case1 exp mant below inductionHypothesis =>
      have steps : stepsDown upper exp = stepsDown upper (exp + 1) + 1 := by
        rw [stepsDown, stepsDown]
        omega
      rw [inductionHypothesis, steps, roundOff, max_eq_right (by omega),
        max_eq_right (by omega)]
  | case2 exp mant notBelow =>
      rw [stepsDown_eq_zero (by omega), roundOff, max_eq_left (by omega)]

namespace SimTime

/-- What the loops of `operator +=` have left in the members. -/
def addWhile (time that : SimTime) : SimTime :=
  let (mant, exp) := scaleWhile that.exp time.exp time.mant
  let (useMant, _) := scaleWhile exp that.exp that.mant
  { mant := mant + useMant, exp := exp }

/-- `operator <` loop by loop. -/
def beforeWhile (time that : SimTime) : Bool :=
  let (left, leftExp) := scaleWhile that.exp time.exp time.mant
  let (right, _) := scaleWhile leftExp that.exp that.mant
  left < right

/-- `units_value` loop by loop. -/
def unitsValueWhile (time : SimTime) (useUnits : Int) : BitVec 64 :=
  let (useTime, useExp) := roundWhile useUnits time.exp time.mant
  (scaleWhile useUnits useExp useTime).1

theorem stepsDown_min (exp lower : Int) :
    stepsDown lower (min exp lower) = stepsDown lower exp := by
  rw [stepsDown, stepsDown]
  omega

/-- The loops of `+=` come to their end. -/
theorem addWhile_eq (time that : SimTime) :
    time.addWhile that = time.add that := by
  rw [addWhile, add, scaleWhile_eq]
  simp only [scaleWhile_eq, stepsDown_min]

theorem beforeWhile_eq (time that : SimTime) :
    time.beforeWhile that = time.before that := by
  rw [beforeWhile, before, scaleWhile_eq]
  simp only [scaleWhile_eq, stepsDown_min]

theorem unitsValueWhile_eq (time : SimTime) (useUnits : Int) :
    time.unitsValueWhile useUnits = time.unitsValue useUnits := by
  have steps : stepsDown (max time.exp useUnits) useUnits =
      stepsDown time.exp useUnits := by
    rw [stepsDown, stepsDown]
    omega
  rw [unitsValueWhile, unitsValue, roundWhile_eq]
  simp only [scaleWhile_eq, steps]

/-! ## Values -/

/-- The time in seconds. -/
def value (time : SimTime) : ℚ :=
  time.mant.toNat * 10 ^ time.exp

/-- The mantissa for an exponent that is not above. -/
def scaled (time : SimTime) (exp : Int) : Nat :=
  time.mant.toNat * 10 ^ stepsDown time.exp exp

/-- Two times whose mantissas and their sum stay below 2^64. -/
def Fits (time that : SimTime) : Prop :=
  time.scaled (min time.exp that.exp) + that.scaled (min time.exp that.exp) <
    2 ^ 64

instance (time that : SimTime) : Decidable (Fits time that) :=
  inferInstanceAs (Decidable (_ < _))

/-- All additions of a series fit. -/
def FitAll : SimTime → List SimTime → Prop
  | _, [] => True
  | time, that :: rest => Fits time that ∧ FitAll (time.add that) rest

/-- A rescaled mantissa stands for the same time. -/
theorem value_eq_scaled
    {time : SimTime}
    {exp : Int}
    (notAbove : exp ≤ time.exp) :
    time.value = time.scaled exp * 10 ^ exp := by
  have steps : ((stepsDown time.exp exp : ℕ) : ℤ) = time.exp - exp := by
    rw [stepsDown]
    omega
  have split : (10 : ℚ) ^ time.exp = 10 ^ stepsDown time.exp exp * 10 ^ exp := by
    rw [← zpow_natCast, steps, ← zpow_add₀ (by norm_num), sub_add_cancel]
  rw [value, scaled, split]
  push_cast
  ring

theorem rescale_toNat
    {steps : Nat}
    {mant : BitVec 64}
    (small : mant.toNat * 10 ^ steps < 2 ^ 64) :
    (rescale steps mant).toNat = mant.toNat * 10 ^ steps := by
  induction steps generalizing mant with
  | zero =>
      rw [rescale, Nat.pow_zero, Nat.mul_one]
  | succ steps inductionHypothesis =>
      have positive : 0 < 10 ^ steps := Nat.pow_pos (by decide)
      have split : mant.toNat * 10 ^ (steps + 1) =
          mant.toNat * 10 * 10 ^ steps := by
        rw [Nat.pow_succ']
        exact (Nat.mul_assoc _ _ _).symm
      rw [split] at small ⊢
      have once : (mant * 10).toNat = mant.toNat * 10 := by
        rw [BitVec.toNat_mul]
        exact Nat.mod_eq_of_lt
          (Nat.lt_of_le_of_lt (Nat.le_mul_of_pos_right _ positive) small)
      rw [rescale, inductionHypothesis (once ▸ small), once]

/-- The mantissas that are added or compared. -/
theorem Fits.rescaled
    {time that : SimTime}
    (fits : Fits time that) :
    (rescale (stepsDown time.exp that.exp) time.mant).toNat =
        time.scaled (min time.exp that.exp) ∧
      (rescale (stepsDown that.exp time.exp) that.mant).toNat =
        that.scaled (min time.exp that.exp) := by
  have left : stepsDown time.exp (min time.exp that.exp) =
      stepsDown time.exp that.exp := by
    rw [stepsDown, stepsDown]
    omega
  have right := stepsDown_min time.exp that.exp
  rw [Fits, scaled, scaled, left, right] at fits
  rw [scaled, scaled, left, right]
  exact ⟨rescale_toNat (by omega), rescale_toNat (by omega)⟩

theorem value_add
    {time that : SimTime}
    (fits : Fits time that) :
    (time.add that).value = time.value + that.value := by
  obtain ⟨left, right⟩ := fits.rescaled
  have sum : (time.add that).mant.toNat =
      time.scaled (min time.exp that.exp) +
        that.scaled (min time.exp that.exp) := by
    rw [add, BitVec.toNat_add, left, right]
    exact Nat.mod_eq_of_lt fits
  have isValue : (time.add that).value =
      (time.add that).mant.toNat * 10 ^ min time.exp that.exp := rfl
  rw [isValue, sum, value_eq_scaled (Int.min_le_left time.exp that.exp),
    value_eq_scaled (Int.min_le_right time.exp that.exp)]
  push_cast
  ring

theorem before_iff
    {time that : SimTime}
    (fits : Fits time that) :
    time.before that = true ↔ time.value < that.value := by
  obtain ⟨left, right⟩ := fits.rescaled
  have positive : (0 : ℚ) < 10 ^ min time.exp that.exp :=
    zpow_pos (by norm_num) _
  rw [value_eq_scaled (Int.min_le_left time.exp that.exp),
    value_eq_scaled (Int.min_le_right time.exp that.exp),
    mul_lt_mul_iff_left₀ positive, Nat.cast_lt, ← left, ← right, before,
    decide_eq_true_iff, BitVec.lt_def]

theorem value_addAll
    {time : SimTime}
    {times : List SimTime}
    (fit : FitAll time times) :
    (times.foldl add time).value = time.value + (times.map value).sum := by
  induction times generalizing time with
  | nil =>
      rw [List.foldl_nil, List.map_nil, List.sum_nil, add_zero]
  | cons that rest inductionHypothesis =>
      rw [List.foldl_cons, inductionHypothesis fit.2, value_add fit.1,
        List.map_cons, List.sum_cons, add_assoc]

/-- How a call of a function that returns a reference ends. -/
inductive Ending where
  | returned (time : SimTime)
  /-- The body ends without a `return`, which is undefined behaviour in C++. -/
  | flowedOff (time : SimTime)
  deriving Repr, DecidableEq

/-- `operator +=`: no `return` stands behind the loops and the sum. -/
def addAssign (time that : SimTime) : Ending :=
  .flowedOff (time.addWhile that)

/-- The sum comes back exact, and the comparison is that of the values. -/
def Exact (time that : SimTime) : Prop :=
  (∃ sum, addAssign time that = .returned sum ∧
      sum.value = time.value + that.value) ∧
    (time.beforeWhile that = true ↔ time.value < that.value)

/--
No addition comes back, whatever the times are.  The loops end, and while nothing
overflows they leave the exact sum in the members, also of any series, and the
comparison is that of the values.
-/
theorem addAssign_never_exact
    (time that : SimTime)
    (times : List SimTime) :
    ¬ Exact time that ∧
    (Fits time that →
      (∃ sum, addAssign time that = .flowedOff sum ∧
        sum.value = time.value + that.value) ∧
      (time.beforeWhile that = true ↔ time.value < that.value)) ∧
    (FitAll time times →
      (times.foldl addWhile time).value =
        time.value + (times.map value).sum) := by
  have isAdd : addWhile = add := by
    funext time that
    exact addWhile_eq time that
  refine ⟨?_, fun fits => ⟨⟨time.addWhile that, rfl, ?_⟩, ?_⟩, fun fit => ?_⟩
  · rintro ⟨⟨sum, returned, _⟩, _⟩
    cases returned
  · rw [addWhile_eq]
    exact value_add fits
  · rw [beforeWhile_eq]
    exact before_iff fits
  · rw [isAdd]
    exact value_addAll fit

/-- A second, two tenths and a millisecond are 1201 milliseconds in the members. -/
theorem addAssign_never_exact_mixed :
    ¬ Exact ⟨2, -1⟩ ⟨1, 0⟩ ∧
    (([⟨1, 0⟩, ⟨1, -3⟩] : List SimTime).foldl addWhile ⟨2, -1⟩).value =
      value ⟨2, -1⟩ + ([⟨1, 0⟩, ⟨1, -3⟩].map value).sum ∧
    (beforeWhile ⟨2, -1⟩ ⟨1, 0⟩ = true ↔ value ⟨2, -1⟩ < value ⟨1, 0⟩) := by
  obtain ⟨never, each, series⟩ :=
    addAssign_never_exact ⟨2, -1⟩ ⟨1, 0⟩ [⟨1, 0⟩, ⟨1, -3⟩]
  exact ⟨never, series ⟨by decide, by decide, trivial⟩,
    (each (by decide)).2⟩

/-- A second and a second fit, but their addition does not come back. -/
theorem addAssign_seconds :
    Fits ⟨1, 0⟩ ⟨1, 0⟩ ∧ addAssign ⟨1, 0⟩ ⟨1, 0⟩ = .flowedOff ⟨2, 0⟩ ∧
      ¬ Exact ⟨1, 0⟩ ⟨1, 0⟩ := by
  have ends : addAssign ⟨1, 0⟩ ⟨1, 0⟩ = .flowedOff ⟨2, 0⟩ := by
    rw [addAssign, addWhile_eq]
    decide
  refine ⟨by decide, ends, ?_⟩
  rintro ⟨⟨sum, returned, _⟩, _⟩
  rw [ends] at returned
  cases returned

/-! ## Units -/

/-- No intermediate result of `units_value` overflows. -/
def UnitsFit (time : SimTime) (useUnits : Int) : Prop :=
  (0 < stepsDown useUnits time.exp → time.mant.toNat + 5 < 2 ^ 64) ∧
    time.scaled useUnits < 2 ^ 64

instance (time : SimTime) (useUnits : Int) :
    Decidable (UnitsFit time useUnits) :=
  inferInstanceAs (Decidable (_ ∧ _))

theorem roundOff_toNat
    {steps : Nat}
    {mant : BitVec 64}
    (small : 0 < steps → mant.toNat + 5 < 2 ^ 64) :
    (roundOff steps mant).toNat = roundEach steps mant.toNat := by
  induction steps generalizing mant with
  | zero =>
      rfl
  | succ steps inductionHypothesis =>
      have bounded := small (Nat.succ_pos steps)
      have once : ((mant + 5) / 10).toNat = (mant.toNat + 5) / 10 := by
        rw [BitVec.toNat_udiv, BitVec.toNat_add]
        exact congrArg (· / 10) (Nat.mod_eq_of_lt bounded)
      rw [roundOff, roundEach, inductionHypothesis (by omega), once]

/-- The units are what digit by digit is rounded off. -/
theorem unitsValue_toNat
    {time : SimTime}
    {useUnits : Int}
    (fits : UnitsFit time useUnits) :
    (time.unitsValue useUnits).toNat =
      roundEach (stepsDown useUnits time.exp) (time.scaled useUnits) := by
  obtain ⟨roundFits, scaleFits⟩ := fits
  rw [unitsValue]
  rcases Int.le_total useUnits time.exp with notBelow | notAbove
  · rw [stepsDown_eq_zero notBelow, roundOff, roundEach, scaled,
      rescale_toNat scaleFits]
  · rw [scaled, stepsDown_eq_zero notAbove, rescale, roundOff_toNat roundFits,
      Nat.pow_zero, Nat.mul_one]

/-- The time in units. -/
theorem value_div_units (time : SimTime) (useUnits : Int) :
    time.value / 10 ^ useUnits =
      (time.scaled useUnits : ℚ) / 10 ^ stepsDown useUnits time.exp := by
  rcases Int.le_total useUnits time.exp with notBelow | notAbove
  · have unit : (10 : ℚ) ^ useUnits ≠ 0 := zpow_ne_zero _ (by norm_num)
    rw [value_eq_scaled notBelow, stepsDown_eq_zero notBelow, pow_zero, div_one,
      mul_div_cancel_right₀ _ unit]
  · have steps : ((stepsDown useUnits time.exp : ℕ) : ℤ) =
        useUnits - time.exp := by
      rw [stepsDown]
      omega
    have split : (10 : ℚ) ^ useUnits =
        10 ^ time.exp * 10 ^ stepsDown useUnits time.exp := by
      rw [← zpow_natCast, steps, ← zpow_add₀ (by norm_num), add_sub_cancel]
    have power : (10 : ℚ) ^ time.exp ≠ 0 := zpow_ne_zero _ (by norm_num)
    rw [value, scaled, stepsDown_eq_zero notAbove, split, pow_zero, mul_one,
      mul_comm, mul_div_mul_left _ _ power]

theorem unitsValue_nearest_iff
    {time : SimTime}
    {useUnits : Int}
    (fits : UnitsFit time useUnits) :
    ((time.unitsValue useUnits).toNat : ℤ) = round (time.value / 10 ^ useUnits) ↔
      ¬ RoundsTwice (stepsDown useUnits time.exp) (time.scaled useUnits) := by
  rw [value_div_units, round_div, unitsValue_toNat fits, Nat.cast_inj]
  exact roundEach_eq_roundOnce_iff _ _

theorem unitsValue_mono
    {time later : SimTime}
    {useUnits : Int}
    (fits : UnitsFit time useUnits)
    (laterFits : UnitsFit later useUnits)
    (ordered : time.value ≤ later.value) :
    time.unitsValue useUnits ≤ later.unitsValue useUnits := by
  have unit : (0 : ℚ) < 10 ^ useUnits := zpow_pos (by norm_num) _
  have inUnits := div_le_div_of_nonneg_right ordered unit.le
  rw [value_div_units, value_div_units, div_le_div_iff₀ (by positivity)
    (by positivity)] at inUnits
  rw [BitVec.le_def, unitsValue_toNat fits, unitsValue_toNat laterFits]
  exact roundEach_mono (by exact_mod_cast inUnits)

/--
The conversion to units keeps the order of times.  It is the nearest number of
units unless the digits that are rounded off lie between 4...45 and 49...9.
-/
theorem unitsValue_iff
    {time later : SimTime}
    {useUnits : Int}
    (fits : UnitsFit time useUnits)
    (laterFits : UnitsFit later useUnits) :
    (((time.unitsValue useUnits).toNat : ℤ) =
        round (time.value / 10 ^ useUnits) ↔
      ¬ RoundsTwice (stepsDown useUnits time.exp) (time.scaled useUnits)) ∧
    (time.value ≤ later.value →
      time.unitsValue useUnits ≤ later.unitsValue useUnits) :=
  ⟨unitsValue_nearest_iff fits, unitsValue_mono fits laterFits⟩

/-- 1.44 and 1.5 seconds are 1 and 2 seconds. -/
theorem unitsValue_ordered :
    ((unitsValue ⟨144, -2⟩ 0).toNat : ℤ) =
        round (value ⟨144, -2⟩ / 10 ^ (0 : ℤ)) ∧
      unitsValue ⟨144, -2⟩ 0 ≤ unitsValue ⟨15, -1⟩ 0 := by
  have ordered : value ⟨144, -2⟩ ≤ value ⟨15, -1⟩ := by
    change ((144 : ℕ) : ℚ) * 10 ^ (-2 : ℤ) ≤ ((15 : ℕ) : ℚ) * 10 ^ (-1 : ℤ)
    norm_num
  obtain ⟨nearest, order⟩ := @unitsValue_iff ⟨144, -2⟩ ⟨15, -1⟩ 0 (by decide)
    (by decide)
  exact ⟨nearest.mpr (by decide), order ordered⟩

/-- 1.45 seconds are rounded to 2. -/
theorem unitsValue_twice :
    UnitsFit ⟨145, -2⟩ 0 ∧
      ((unitsValue ⟨145, -2⟩ 0).toNat : ℤ) ≠
        round (value ⟨145, -2⟩ / 10 ^ (0 : ℤ)) := by
  have fits : UnitsFit ⟨145, -2⟩ 0 := by decide
  refine ⟨fits, fun nearest => ?_⟩
  exact (unitsValue_nearest_iff fits).mp nearest (by decide)

end SimTime

end Simbus
