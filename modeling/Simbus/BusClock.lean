import Simbus.FourValued
import Simbus.SimTime
import Mathlib

/-!
# The clock of a bus

Three of the protocols of the server run the same clock of four phases, whose
lengths come from the options of the bus.
-/

namespace Simbus

open FourValued

/-- The options for the clock of a bus, in ps. -/
structure ClockOptions where
  clockHigh : BitVec 64
  clockLow : BitVec 64
  clockHold : BitVec 64
  clockSetup : BitVec 64
  deriving DecidableEq

/-- The assertions of the constructors. -/
structure ClockOptions.Accepted (options : ClockOptions) : Prop where
  holdPositive : 0 < options.clockHold
  holdShort : options.clockHold < options.clockHigh
  setupPositive : 0 < options.clockSetup
  setupShort : options.clockSetup < options.clockLow

instance (options : ClockOptions) : Decidable options.Accepted :=
  decidable_of_iff
    (0 < options.clockHold ∧ options.clockHold < options.clockHigh ∧
      0 < options.clockSetup ∧ options.clockSetup < options.clockLow)
    ⟨fun ⟨hold, high, setup, low⟩ => ⟨hold, high, setup, low⟩,
      fun ⟨hold, high, setup, low⟩ => ⟨hold, high, setup, low⟩⟩

/-- The phase, the table of the phases and the time of a protocol. -/
structure BusClock where
  phase : Fin 4
  clockPhaseMap : Fin 4 → BitVec 64
  time : SimTime

namespace BusClock

/-- What the constructors set up. -/
def ofOptions (options : ClockOptions) : BusClock where
  phase := 0
  clockPhaseMap
    | 0 => options.clockHold
    | 1 => options.clockHigh - options.clockHold
    | 2 => options.clockLow - options.clockSetup
    | 3 => options.clockSetup
  time := .zero

/-- The constructors, as far as the clock is concerned. -/
def make (options : ClockOptions) : Option BusClock :=
  if options.Accepted then some (ofOptions options) else none

/-- `advance_bus_clock_`; the lengths of the phases are in ps. -/
def advanceBusClock (clock : BusClock) : BusClock :=
  { clock with
    phase := clock.phase + 1
    time := clock.time.add ⟨clock.clockPhaseMap (clock.phase + 1), -12⟩ }

/-- The clock is high for phases 0 and 1, and low for phases 2 and 3. -/
def busClk (clock : BusClock) : Logic4 :=
  if clock.phase.val / 2 = 0 then .one else .zero

/-- The clock after a number of steps. -/
def advanced (options : ClockOptions) : Nat → BusClock
  | 0 => ofOptions options
  | steps + 1 => (advanced options steps).advanceBusClock

end BusClock

/-! ## The time of a run -/

/-- The length of a phase. -/
def phaseLength (options : ClockOptions) (phase : Fin 4) : Nat :=
  ((BusClock.ofOptions options).clockPhaseMap phase).toNat

/-- The phase that a step enters, where the first step has number 0. -/
def phaseEntered (step : Nat) : Fin 4 :=
  Fin.ofNat 4 (step + 1)

/-- The time of the phases that some steps have entered. -/
def elapsed (options : ClockOptions) (steps : Nat) : Nat :=
  ((List.range steps).map fun step =>
    phaseLength options (phaseEntered step)).sum

theorem elapsed_succ (options : ClockOptions) (steps : Nat) :
    elapsed options (steps + 1) =
      elapsed options steps + phaseLength options (phaseEntered steps) := by
  rw [elapsed, List.range_succ, List.map_append, List.sum_append,
    List.map_singleton, List.sum_singleton]
  rfl

theorem elapsed_le
    (options : ClockOptions)
    {steps later : Nat}
    (before : steps ≤ later) :
    elapsed options steps ≤ elapsed options later := by
  induction later, before using Nat.le_induction with
  | base =>
      exact Nat.le_refl _
  | succ later _ inductionHypothesis =>
      rw [elapsed_succ]
      exact Nat.le_trans inductionHypothesis (Nat.le_add_right _ _)

section

variable {options : ClockOptions}

theorem phaseLength_pos
    (accepted : options.Accepted)
    (phase : Fin 4) :
    0 < phaseLength options phase := by
  obtain ⟨hold, high, setup, low⟩ := accepted
  rw [BitVec.lt_def] at hold high setup low
  have zero : (0 : BitVec 64).toNat = 0 := rfl
  match phase with
  | 0 =>
      exact zero ▸ hold
  | 1 =>
      have exact := BitVec.toNat_sub_of_le (BitVec.le_def.mpr high.le)
      change 0 < (options.clockHigh - options.clockHold).toNat
      omega
  | 2 =>
      have exact := BitVec.toNat_sub_of_le (BitVec.le_def.mpr low.le)
      change 0 < (options.clockLow - options.clockSetup).toNat
      omega
  | 3 =>
      exact zero ▸ setup

/-- A step does nothing but enter the next phase. -/
theorem advanced_phase (options : ClockOptions) (steps : Nat) :
    (BusClock.advanced options steps).phase = Fin.ofNat 4 steps ∧
      (BusClock.advanced options steps).clockPhaseMap =
        (BusClock.ofOptions options).clockPhaseMap := by
  induction steps with
  | zero =>
      exact ⟨rfl, rfl⟩
  | succ steps inductionHypothesis =>
      obtain ⟨phase, phaseMap⟩ := inductionHypothesis
      rw [BusClock.advanced]
      refine ⟨?_, phaseMap⟩
      apply Fin.ext
      change ((BusClock.advanced options steps).phase + 1).val = _
      rw [phase, Fin.val_add, Fin.val_ofNat, Fin.val_ofNat]
      exact Nat.mod_add_mod steps 4 1

/-- What a step adds to the time. -/
theorem advanced_succ_time (options : ClockOptions) (steps : Nat) :
    (BusClock.advanced options (steps + 1)).time =
      (BusClock.advanced options steps).time.add
        ⟨(BusClock.ofOptions options).clockPhaseMap (phaseEntered steps),
          -12⟩ := by
  obtain ⟨phase, phaseMap⟩ := advanced_phase options steps
  have entered := (advanced_phase options (steps + 1)).1
  change (BusClock.advanced options steps).phase + 1 = _ at entered
  rw [BusClock.advanced, BusClock.advanceBusClock, entered, phaseMap]
  rfl

/-- The time is that of the phases entered, while it does not overflow. -/
theorem advanced_time
    {steps : Nat}
    (small : elapsed options (steps + 1) < 2 ^ 64) :
    (BusClock.advanced options (steps + 1)).time =
      ⟨BitVec.ofNat 64 (elapsed options (steps + 1)), -12⟩ := by
  induction steps with
  | zero =>
      rw [advanced_succ_time]
      change SimTime.zero.add _ = _
      have lower : (-12 : Int) ≤ 0 := by decide
      rw [SimTime.zero_add lower, elapsed_succ]
      change _ = SimTime.mk (BitVec.ofNat 64 (0 + _)) _
      rw [Nat.zero_add, phaseLength, BitVec.ofNat_toNat, BitVec.setWidth_eq]
  | succ steps inductionHypothesis =>
      have before := elapsed_le options (Nat.le_succ (steps + 1))
      have time := inductionHypothesis (Nat.lt_of_le_of_lt before small)
      have next := elapsed_succ options (steps + 1)
      rw [advanced_succ_time, time, next, phaseLength, BitVec.ofNat_add,
        BitVec.ofNat_toNat, BitVec.setWidth_eq]
      simp only [SimTime.add, stepsDown_self, rescale, min_self]

/-! ## What is sent -/

/-- What one step sends to a free-running client: the time and the clock. -/
abbrev Sent : Type := SimTime × Logic4

/-- What a number of steps sends. -/
def sentBy (options : ClockOptions) (steps : Nat) : List Sent :=
  (List.range steps).map fun step =>
    let clock := BusClock.advanced options (step + 1)
    (clock.time, clock.busClk)

/--
How long a level is sent, from some time on.  A value stands until the time
that it is sent with.
-/
def timeAt (level : Logic4) : Nat → List Sent → Nat
  | _, [] => 0
  | before, (time, clock) :: rest =>
      (if clock = level then time.mant.toNat - before else 0) +
        timeAt level time.mant.toNat rest

/-- What a clock should send, phase after phase. -/
structure KeepsTime (options : ClockOptions) (sent : List Sent) : Prop where
  /-- The time is that of all phases entered so far. -/
  sums : ∀ step sentThen, sent[step]? = some sentThen →
    sentThen.1.mant.toNat = elapsed options (step + 1) ∧
      sentThen.1.exp = -12
  /-- The time increases with every step. -/
  increases : sent.Pairwise fun first later => first.1.before later.1 = true
  /-- In every period the clock is high as long as it should be, -/
  high : ∀ first, first + 4 ≤ sent.length →
    timeAt .one (elapsed options first) ((sent.drop first).take 4) =
      options.clockHigh.toNat
  /-- and low. -/
  low : ∀ first, first + 4 ≤ sent.length →
    timeAt .zero (elapsed options first) ((sent.drop first).take 4) =
      options.clockLow.toNat

theorem length_sentBy (options : ClockOptions) (steps : Nat) :
    (sentBy options steps).length = steps := by
  rw [sentBy, List.length_map, List.length_range]

/-- One value of what is sent. -/
theorem sentBy_getElem?
    {steps step : Nat}
    {sent : Sent}
    (isSent : (sentBy options steps)[step]? = some sent) :
    step < steps ∧
      sent = ((BusClock.advanced options (step + 1)).time,
        (BusClock.advanced options (step + 1)).busClk) := by
  rw [sentBy, List.getElem?_map, Option.map_eq_some_iff] at isSent
  obtain ⟨index, isIndex, rfl⟩ := isSent
  rw [List.getElem?_eq_some_iff] at isIndex
  obtain ⟨inside, isIndex⟩ := isIndex
  rw [List.length_range] at inside
  rw [List.getElem_range] at isIndex
  subst isIndex
  exact ⟨inside, rfl⟩

/-- The clock that is sent with a phase. -/
def levelIn (phase : Fin 4) : Logic4 :=
  if phase.val / 2 = 0 then .one else .zero

theorem advanced_busClk (options : ClockOptions) (step : Nat) :
    (BusClock.advanced options (step + 1)).busClk =
      levelIn (phaseEntered step) := by
  rw [BusClock.busClk, (advanced_phase options (step + 1)).1]
  rfl

/-- How long a level lasts in some steps. -/
def lasting
    (options : ClockOptions)
    (level : Logic4)
    (first steps : Nat) : Nat :=
  ((List.range' first steps).map fun step =>
    if levelIn (phaseEntered step) = level then
      phaseLength options (phaseEntered step)
    else
      0).sum

/-- A level is sent as long as it lasts. -/
theorem timeAt_sentBy
    (level : Logic4)
    {first steps : Nat}
    (small : elapsed options (first + steps) < 2 ^ 64) :
    timeAt level (elapsed options first)
        ((List.range' first steps).map fun step =>
          ((BusClock.advanced options (step + 1)).time,
            (BusClock.advanced options (step + 1)).busClk)) =
      lasting options level first steps := by
  induction steps generalizing first with
  | zero =>
      rfl
  | succ steps inductionHypothesis =>
      have inside : elapsed options (first + 1) < 2 ^ 64 :=
        Nat.lt_of_le_of_lt (elapsed_le options (by omega)) small
      have isTime : (BusClock.advanced options (first + 1)).time.mant.toNat =
          elapsed options (first + 1) := by
        rw [advanced_time inside, BitVec.toNat_ofNat]
        exact Nat.mod_eq_of_lt inside
      have smallLater : elapsed options (first + 1 + steps) < 2 ^ 64 := by
        rwa [Nat.add_right_comm, Nat.add_assoc]
      have later := inductionHypothesis smallLater
      rw [lasting, List.range'_succ, List.map_cons, List.map_cons,
        List.sum_cons, timeAt, isTime, later, advanced_busClk]
      have length : elapsed options (first + 1) - elapsed options first =
          phaseLength options (phaseEntered first) := by
        rw [elapsed_succ]
        exact Nat.add_sub_cancel_left _ _
      rw [length]
      rfl

/-- The phases of a period follow each other. -/
theorem phaseEntered_add (first step : Nat) :
    phaseEntered (first + step) = phaseEntered first + Fin.ofNat 4 step := by
  apply Fin.ext
  rw [Fin.val_add, phaseEntered, phaseEntered]
  simp only [Fin.val_ofNat]
  omega

/-- A period goes through all phases, from any phase on. -/
theorem sum_period (length : Fin 4 → Nat) (phase : Fin 4) :
    length phase + (length (phase + 1) + (length (phase + 2) +
        (length (phase + 3) + 0))) =
      length 0 + length 1 + length 2 + length 3 := by
  match phase with
  | 0 =>
      change length 0 + (length 1 + (length 2 + (length 3 + 0))) = _
      omega
  | 1 =>
      change length 1 + (length 2 + (length 3 + (length 0 + 0))) = _
      omega
  | 2 =>
      change length 2 + (length 3 + (length 0 + (length 1 + 0))) = _
      omega
  | 3 =>
      change length 3 + (length 0 + (length 1 + (length 2 + 0))) = _
      omega

/-- A level lasts for its phases in every period. -/
theorem lasting_period
    (options : ClockOptions)
    (level : Logic4)
    (first : Nat) :
    lasting options level first 4 =
      (if .one = level then
          phaseLength options 0 + phaseLength options 1 else 0) +
        if .zero = level then
          phaseLength options 2 + phaseLength options 3 else 0 := by
  have second := phaseEntered_add first 1
  have third := phaseEntered_add first 2
  have fourth := phaseEntered_add first 3
  simp only [lasting, List.range', List.map_cons, List.map_nil,
    List.sum_cons, List.sum_nil]
  rw [Nat.add_assoc first 1 1, Nat.add_assoc first (1 + 1) 1, second, third,
    fourth]
  refine (sum_period (fun phase =>
    if levelIn phase = level then phaseLength options phase else 0)
    (phaseEntered first)).trans ?_
  change (if .one = level then _ else 0) + (if .one = level then _ else 0) +
    (if .zero = level then _ else 0) + (if .zero = level then _ else 0) = _
  split <;> split <;> omega

/-- A part of what is sent. -/
theorem sentBy_window
    {steps first count : Nat}
    (inside : first + count ≤ steps) :
    ((sentBy options steps).drop first).take count =
      (List.range' first count).map fun step =>
        ((BusClock.advanced options (step + 1)).time,
          (BusClock.advanced options (step + 1)).busClk) := by
  have enough : count ≤ steps - first := by omega
  have start : 0 + first * 1 = first := by omega
  rw [sentBy, ← List.map_drop, ← List.map_take, List.range_eq_range',
    List.drop_range', List.take_range'_of_length_ge enough, start]

/-- Both lengths of a level together. -/
theorem phaseLength_high (accepted : options.Accepted) :
    phaseLength options 0 + phaseLength options 1 =
      options.clockHigh.toNat := by
  have short := BitVec.le_of_lt accepted.holdShort
  have exact := BitVec.toNat_sub_of_le short
  rw [BitVec.le_def] at short
  change options.clockHold.toNat +
    (options.clockHigh - options.clockHold).toNat = _
  omega

theorem phaseLength_low (accepted : options.Accepted) :
    phaseLength options 2 + phaseLength options 3 =
      options.clockLow.toNat := by
  have short := BitVec.le_of_lt accepted.setupShort
  have exact := BitVec.toNat_sub_of_le short
  rw [BitVec.le_def] at short
  change (options.clockLow - options.clockSetup).toNat +
    options.clockSetup.toNat = _
  omega

/-- Earlier steps have earlier times. -/
theorem advanced_before
    (accepted : options.Accepted)
    {first later : Nat}
    (isBefore : first < later)
    (small : elapsed options (later + 1) < 2 ^ 64) :
    (BusClock.advanced options (first + 1)).time.before
        (BusClock.advanced options (later + 1)).time =
      true := by
  have grows : elapsed options (first + 1) < elapsed options (later + 1) := by
    have upTo : elapsed options (first + 1) ≤ elapsed options later :=
      elapsed_le options isBefore
    have positive := phaseLength_pos accepted (phaseEntered later)
    rw [elapsed_succ options later]
    omega
  have smaller := Nat.lt_trans grows small
  rw [advanced_time small, advanced_time smaller, SimTime.before]
  simp only [stepsDown_self, rescale, decide_eq_true_eq]
  rw [BitVec.lt_def, BitVec.toNat_ofNat, BitVec.toNat_ofNat,
    Nat.mod_eq_of_lt small, Nat.mod_eq_of_lt smaller]
  exact grows

/-- The clock keeps time. -/
theorem keepsTime_sentBy
    (accepted : options.Accepted)
    {steps : Nat}
    (small : elapsed options steps < 2 ^ 64) :
    KeepsTime options (sentBy options steps) where
  sums := by
    intro step sent isSent
    obtain ⟨inside, rfl⟩ := sentBy_getElem? isSent
    have smaller := Nat.lt_of_le_of_lt
      (elapsed_le options (Nat.succ_le_of_lt inside)) small
    rw [advanced_time smaller]
    refine ⟨?_, rfl⟩
    rw [BitVec.toNat_ofNat]
    exact Nat.mod_eq_of_lt smaller
  increases := by
    rw [sentBy, List.pairwise_map]
    refine List.Pairwise.imp_of_mem ?_ List.pairwise_lt_range
    intro first later _ member isBefore
    rw [List.mem_range] at member
    exact advanced_before accepted isBefore (Nat.lt_of_le_of_lt
      (elapsed_le options (Nat.succ_le_of_lt member)) small)
  high := by
    intro first inside
    rw [length_sentBy] at inside
    have smaller := Nat.lt_of_le_of_lt (elapsed_le options inside) small
    rw [sentBy_window inside, timeAt_sentBy .one smaller, lasting_period]
    exact phaseLength_high accepted
  low := by
    intro first inside
    rw [length_sentBy] at inside
    have smaller := Nat.lt_of_le_of_lt (elapsed_le options inside) small
    rw [sentBy_window inside, timeAt_sentBy .zero smaller, lasting_period]
    exact (Nat.zero_add _).trans (phaseLength_low accepted)

end

end Simbus
