import Simbus.ExactTime

/-!
# The delay that `$simbus_until` returns

The UNTIL time and the current time are brought to the time unit of the scope, and
their difference is the delay.  The loop for the current time takes the UNTIL time
as its operand.
-/

namespace Simbus.Vpi

open DecimalRounding

/-- `vpi_get_time`: both halves of the simulation time. -/
def vpiTime (high low : BitVec 32) : BitVec 64 :=
  (high.setWidth 64 <<< 32) + low.setWidth 64

/-- The UNTIL time in units of the scope. -/
def untilUnits (untilTime : SimTime) (units : Int) : BitVec 64 :=
  let (mant, exp) := scaleWhile units untilTime.exp untilTime.mant
  (roundWhile units exp mant).1

/-- `while (prec < units) { prec += 1; deltatime = (until_mant + 5)/10; }`. -/
def precisionWhile
    (units prec : Int)
    (untilMant deltatime : BitVec 64) : BitVec 64 :=
  if prec < units then
    precisionWhile units (prec + 1) untilMant ((untilMant + 5) / 10)
  else
    deltatime
termination_by (units - prec).toNat

/-- The delay in 64 bits. -/
def untilDelta
    (untilTime : SimTime)
    (now : BitVec 64)
    (prec units : Int) : BitVec 64 :=
  let untilMant := untilUnits untilTime units
  let deltatime := precisionWhile units prec untilMant now
  if untilMant < deltatime then
    0
  else
    untilMant - deltatime

/-- What `simbus_until_calltf` returns, an integer of 32 bits. -/
def simbusUntil
    (untilTime : SimTime)
    (high low : BitVec 32)
    (prec units : Int) : Int :=
  ((untilDelta untilTime (vpiTime high low) prec units).setWidth 32).toInt

/-- The delay from the current time to the UNTIL time, both in units. -/
def unitsBetween
    (untilTime : SimTime)
    (now : BitVec 64)
    (prec units : Int) : Int :=
  max 0 ((untilTime.unitsValue units).toNat -
    (SimTime.unitsValue ⟨now, prec⟩ units).toNat)

variable {untilTime : SimTime}
variable {now : BitVec 64}
variable {prec units : Int}

theorem untilUnits_eq (untilTime : SimTime) (units : Int) :
    untilUnits untilTime units = untilTime.unitsValue units := by
  rw [untilUnits, scaleWhile_eq, SimTime.unitsValue]
  simp only [roundWhile_eq]
  rcases Int.le_total units untilTime.exp with notBelow | notAbove
  · rw [stepsDown_eq_zero notBelow, min_eq_right notBelow, stepsDown_self,
      roundOff, roundOff]
  · rw [stepsDown_eq_zero notAbove, min_eq_left notAbove, rescale, rescale]

/-- Any number of steps leaves a tenth of the UNTIL time. -/
theorem precisionWhile_finer
    (finer : prec < units)
    (untilMant deltatime : BitVec 64) :
    precisionWhile units prec untilMant deltatime = (untilMant + 5) / 10 := by
  fun_induction precisionWhile units prec untilMant deltatime with
  | case1 prec deltatime _ inductionHypothesis =>
      by_cases again : prec + 1 < units
      · exact inductionHypothesis again
      · rw [precisionWhile, if_neg again]
  | case2 prec deltatime notFiner =>
      exact (notFiner finer).elim

theorem precisionWhile_same (untilMant deltatime : BitVec 64) :
    precisionWhile units units untilMant deltatime = deltatime := by
  rw [precisionWhile, if_neg (Int.lt_irrefl units)]

/-- A delay that fits is returned as it is. -/
theorem simbusUntil_eq
    {high low : BitVec 32}
    (fits : (untilDelta untilTime (vpiTime high low) prec units).toNat < 2 ^ 31) :
    simbusUntil untilTime high low prec units =
      (untilDelta untilTime (vpiTime high low) prec units).toNat := by
  have narrow :
      ((untilDelta untilTime (vpiTime high low) prec units).setWidth 32).toNat =
        (untilDelta untilTime (vpiTime high low) prec units).toNat := by
    rw [BitVec.toNat_setWidth]
    omega
  rw [simbusUntil, BitVec.toInt_eq_toNat_of_lt (by omega), narrow]

/-- Without any steps the delay is right. -/
theorem untilDelta_same :
    ((untilDelta untilTime now units units).toNat : ℤ) =
      unitsBetween untilTime now units units := by
  have isNow : SimTime.unitsValue ⟨now, units⟩ units = now := by
    rw [SimTime.unitsValue, stepsDown_self]
    rfl
  rw [untilDelta, untilUnits_eq, precisionWhile_same, unitsBetween, isNow]
  split
  · rename_i later
    rw [BitVec.lt_def] at later
    rw [max_eq_left (by omega)]
    rfl
  · rename_i notLater
    rw [BitVec.not_lt, BitVec.le_def] at notLater
    rw [BitVec.toNat_sub_of_le (BitVec.le_def.mpr notLater),
      max_eq_right (by omega), Nat.cast_sub notLater]

/-- With a finer precision nine tenths of the UNTIL time are left. -/
theorem untilDelta_finer_iff (finer : prec < units) :
    ((untilDelta untilTime now prec units).toNat : ℤ) =
        unitsBetween untilTime now prec units ↔
      untilTime.unitsValue units = 0 ∨
        SimTime.unitsValue ⟨now, prec⟩ units =
          (untilTime.unitsValue units + 5) / 10 := by
  generalize isNow : SimTime.unitsValue ⟨now, prec⟩ units = nowUnits
  rw [untilDelta, untilUnits_eq, precisionWhile_finer finer, unitsBetween, isNow]
  generalize untilTime.unitsValue units = untilMant
  have tenth : ((untilMant + 5) / 10).toNat =
      (untilMant.toNat + 5) % 2 ^ 64 / 10 := by
    rw [BitVec.toNat_udiv, BitVec.toNat_add]
    rfl
  have bounded := untilMant.isLt
  have isZero : untilMant = 0 ↔ untilMant.toNat = 0 := BitVec.toNat_inj.symm
  have isTenth : nowUnits = (untilMant + 5) / 10 ↔
      nowUnits.toNat = ((untilMant + 5) / 10).toNat := BitVec.toNat_inj.symm
  have below : untilMant.toNat = 0 ∧ ((untilMant + 5) / 10).toNat = 0 ∨
      ((untilMant + 5) / 10).toNat < untilMant.toNat := by
    rw [tenth]
    rcases Nat.lt_or_ge (untilMant.toNat + 5) (2 ^ 64) with small | large
    · rw [Nat.mod_eq_of_lt small]
      omega
    · omega
  have notAbove : ((untilMant + 5) / 10).toNat ≤ untilMant.toNat := by omega
  have notLater : ¬ untilMant < (untilMant + 5) / 10 :=
    BitVec.not_lt.mpr (BitVec.le_def.mpr notAbove)
  simp only [if_neg notLater]
  rw [BitVec.toNat_sub_of_le (BitVec.le_def.mpr notAbove), isZero, isTenth]
  clear tenth
  omega

/--
The delay is right if the precision is the unit of the scope, the UNTIL time is 0 or
the current time is a tenth of it, and only then.
-/
theorem simbusUntil_iff
    {high low : BitVec 32}
    (finer : prec ≤ units)
    (fits : (untilDelta untilTime (vpiTime high low) prec units).toNat < 2 ^ 31) :
    simbusUntil untilTime high low prec units =
        unitsBetween untilTime (vpiTime high low) prec units ↔
      prec = units ∨ untilTime.unitsValue units = 0 ∨
        SimTime.unitsValue ⟨vpiTime high low, prec⟩ units =
          (untilTime.unitsValue units + 5) / 10 := by
  rw [simbusUntil_eq fits]
  rcases Int.lt_or_eq_of_le finer with below | same
  · rw [untilDelta_finer_iff below]
    exact ⟨.inr, fun either => either.resolve_left (by omega)⟩
  · subst same
    exact ⟨fun _ => .inl rfl, fun _ => untilDelta_same⟩

/-- From 30 to 50 units of the precision. -/
theorem simbusUntil_sameUnit :
    simbusUntil ⟨50, -9⟩ 0 30 (-9) (-9) =
      unitsBetween ⟨50, -9⟩ (vpiTime 0 30) (-9) (-9) := by
  have fits : (untilDelta ⟨50, -9⟩ (vpiTime 0 30) (-9) (-9)).toNat < 2 ^ 31 := by
    rw [untilDelta, precisionWhile_same, untilUnits_eq]
    decide
  exact (simbusUntil_iff (Int.le_refl _) fits).mpr (.inl rfl)

/-- From 30 to 50 ns in a module with a unit of 1 ns and a precision of 1 ps. -/
theorem simbusUntil_finer :
    (untilDelta ⟨50, -9⟩ (vpiTime 0 30000) (-12) (-9)).toNat < 2 ^ 31 ∧
      simbusUntil ⟨50, -9⟩ 0 30000 (-12) (-9) ≠
        unitsBetween ⟨50, -9⟩ (vpiTime 0 30000) (-12) (-9) := by
  have fits : (untilDelta ⟨50, -9⟩ (vpiTime 0 30000) (-12) (-9)).toNat <
      2 ^ 31 := by
    rw [untilDelta, precisionWhile_finer (by decide), untilUnits_eq]
    decide
  refine ⟨fits, fun right => ?_⟩
  rw [simbusUntil_eq fits, untilDelta_finer_iff (by decide)] at right
  exact absurd right (by decide)

end Simbus.Vpi
