import Mathlib

/-!
# Simulation time

`simtime_t`: a mantissa of 64 bits and a decimal exponent, in seconds.  Times
of different exponents are brought to the smaller one, where the mantissa may
overflow.
-/

namespace Simbus

/-- `simtime_t`. -/
structure SimTime where
  mant : BitVec 64
  exp : Int
  deriving Repr, DecidableEq

/-- `mant *= 10` for every step between two exponents. -/
def rescale : Nat → BitVec 64 → BitVec 64
  | 0, mant => mant
  | steps + 1, mant => rescale steps (mant * 10)

/-- `(mant + 5) / 10` for every step between two exponents. -/
def roundOff : Nat → BitVec 64 → BitVec 64
  | 0, mant => mant
  | steps + 1, mant => roundOff steps ((mant + 5) / 10)

/-- The steps from one exponent down to another; none if it is not above. -/
def stepsDown (exp lower : Int) : Nat :=
  (exp - lower).toNat

namespace SimTime

/-- The time before anything has happened. -/
def zero : SimTime where
  mant := 0
  exp := 0

/--
What `operator +=` leaves in the members.  It has no `return`, and its result is
never used.
-/
def add (time that : SimTime) : SimTime where
  mant :=
    rescale (stepsDown time.exp that.exp) time.mant +
      rescale (stepsDown that.exp time.exp) that.mant
  exp := min time.exp that.exp

/-- `operator <`. -/
def before (time that : SimTime) : Bool :=
  rescale (stepsDown time.exp that.exp) time.mant <
    rescale (stepsDown that.exp time.exp) that.mant

/-- `units_value`. -/
def unitsValue (time : SimTime) (useUnits : Int) : BitVec 64 :=
  rescale (stepsDown time.exp useUnits)
    (roundOff (stepsDown useUnits time.exp) time.mant)

end SimTime

/-! ## Sums -/

@[simp]
theorem stepsDown_self (exp : Int) : stepsDown exp exp = 0 := by
  rw [stepsDown, Int.sub_self]
  rfl

theorem rescale_zero (steps : Nat) : rescale steps 0 = 0 := by
  induction steps with
  | zero =>
      rfl
  | succ steps inductionHypothesis =>
      rw [rescale]
      exact inductionHypothesis

namespace SimTime

/-- The first addition takes over the time that is added. -/
theorem zero_add
    {that : SimTime}
    (lower : that.exp ≤ 0) :
    zero.add that = that := by
  obtain ⟨mant, exp⟩ := that
  have noSteps : stepsDown exp 0 = 0 := by
    change exp ≤ 0 at lower
    rw [stepsDown]
    omega
  change SimTime.mk _ _ = SimTime.mk mant exp
  rw [SimTime.mk.injEq]
  constructor
  · change rescale _ 0 + rescale (stepsDown exp 0) mant = mant
    rw [rescale_zero, noSteps]
    exact BitVec.zero_add mant
  · exact Int.min_eq_right lower

end SimTime

end Simbus
