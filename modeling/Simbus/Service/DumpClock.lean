import Simbus.Service.Trace
import Simbus.Service.TraceInit
import Mathlib

/-!
# The trace file of a server with one bus

A bus with the clock of four phases runs again and again, and every run comes at
the time of the phase before it.  The file shows what the runs have recorded, with
the times in units of the file.
-/

set_option autoImplicit false

namespace Simbus.Service

open FourValued (Logic4)
open Lxt2 (CString Kind Trace dictStart readFile)

/-! ## Times -/

/-- The time of a run in units of the file. -/
def runTime (options : ClockOptions) (step : Nat) : Nat :=
  ((elapsed options step + 5) / 10 + 5) / 10

/-- The time that the server sets for a run. -/
def runStamp (options : ClockOptions) (step : Nat) : BitVec 32 :=
  ((BusClock.advanced options step).time.unitsValue
    serviceTimePrecision).setWidth 32

/-- The events of a server whose only bus has run so many times. -/
def clockedEvents
    (options : ClockOptions)
    (port : String)
    (samples : Nat → List Sample)
    (runs : Nat) : List DumpEvent :=
  .assemblyComplete port :: (List.range runs).map fun step =>
    .busReady port (runStamp options step) (samples step)

section

variable {options : ClockOptions}

theorem runTime_le
    {step later : Nat}
    (before : step ≤ later) :
    runTime options step ≤ runTime options later :=
  Nat.div_le_div_right (Nat.add_le_add_right (Nat.div_le_div_right
    (Nat.add_le_add_right (elapsed_le options before) 5)) 5)

theorem advanced_countsPs (options : ClockOptions) (step : Nat) :
    CountsPs (BusClock.advanced options step).time := by
  induction step with
  | zero =>
      exact .inl rfl
  | succ step inductionHypothesis =>
      rw [advanced_succ_time]
      exact inductionHypothesis.add _

theorem eq_advanced_of_make
    {clock : BusClock}
    (made : BusClock.make options = some clock) :
    clock = BusClock.advanced options 0 := by
  rw [BusClock.make, Option.ite_none_right_eq_some] at made
  obtain ⟨_, isMade⟩ := made
  cases isMade
  rfl

/-- The time that is set is that of the run while it fits into 32 bits. -/
theorem toNat_runStamp
    {step : Nat}
    (short : runTime options step < 2 ^ 32) :
    (runStamp options step).toNat = runTime options step := by
  have small : elapsed options step < 2 ^ 64 := by
    rw [runTime] at short
    omega
  have isTime : traceTime (BusClock.advanced options step).time =
      runTime options step := by
    cases step with
    | zero =>
        rfl
    | succ step =>
        rw [traceTime, advanced_time small, BitVec.toNat_ofNat,
          Nat.mod_eq_of_lt small]
        rfl
  have counts := advanced_countsPs options step
  exact (counts.setTime_iff.mpr (isTime ▸ short)).trans isTime

theorem setWidth_runStamp
    {step : Nat}
    (short : runTime options step < 2 ^ 32) :
    (runStamp options step).setWidth 64 = BitVec.ofNat 64 (runTime options step) := by
  apply BitVec.eq_of_toNat_eq
  rw [BitVec.toNat_setWidth, toNat_runStamp short, BitVec.toNat_ofNat]

/-! ## Runs -/

variable {buses : String → TracedBus}
variable {port : String}
variable {samples : Nat → List Sample}

theorem clockedEvents_succ (runs : Nat) :
    clockedEvents options port samples (runs + 1) =
      clockedEvents options port samples runs ++
        [.busReady port (runStamp options runs) (samples runs)] := by
  rw [clockedEvents, List.range_succ, List.map_append]
  rfl

/-- The number of values, when no run has more than so many. -/
theorem length_given_clocked_le
    {most : Nat}
    (each : ∀ step, (samples step).length ≤ most)
    (runs : Nat) :
    (given buses port (clockedEvents options port samples runs)).length ≤
      (buses port).initial.length + most * runs := by
  induction runs with
  | zero =>
      rw [given, clockedEvents, List.range_zero, List.map_nil,
        List.flatMap_singleton]
      change (if port = port then _ else _ : List _).length ≤ _
      rw [if_pos rfl, List.length_map]
      exact Nat.le_add_right _ _
  | succ runs inductionHypothesis =>
      have isGiven : (DumpEvent.busReady port (runStamp options runs)
          (samples runs)).given buses port =
            (samples runs).map (Prod.mk ((runStamp options runs).setWidth 64)) :=
        if_pos rfl
      rw [clockedEvents_succ, Dump.given_concat, isGiven, List.length_append,
        List.length_map, Nat.mul_succ, ← Nat.add_assoc]
      exact Nat.add_le_add inductionHypothesis (each runs)

/-- A bus runs as long as its widths and its values fit. -/
theorem clocked_total
    (sound : (buses port).Sound)
    (initialFits : (buses port).Fits)
    {runs : Nat}
    (fits : ∀ step < runs, ∀ sample ∈ samples step, sample.value.Fits) :
    ∃ dump, Dump.run buses (clockedEvents options port samples runs) =
      some dump := by
  induction runs with
  | zero =>
      exact Dump.first_total sound initialFits
  | succ runs inductionHypothesis =>
      obtain ⟨before, isBefore⟩ := inductionHypothesis fun step isEarlier =>
        fits step (Nat.lt_succ_of_lt isEarlier)
      obtain ⟨dump, isNext⟩ := (Dump.run_oneBus sound isBefore).busReady_total
        (runStamp options runs) (fits runs (Nat.lt_succ_self runs))
      refine ⟨dump, ?_⟩
      rw [clockedEvents_succ]
      exact Dump.run_of_concat isBefore isNext

theorem clocked_rising
    {runs : Nat}
    (short : runTime options runs < 2 ^ 32) :
    (((List.range runs).map fun step => DumpEvent.busReady port
      (runStamp options step) (samples step)).filterMap
        DumpEvent.time?).Pairwise (· ≤ ·) := by
  rw [List.filterMap_map]
  have isTime : (List.range runs).filterMap (DumpEvent.time? ∘ fun step =>
      DumpEvent.busReady port (runStamp options step) (samples step)) =
        (List.range runs).map (runStamp options) :=
    congrFun List.filterMap_eq_map' _
  rw [isTime, List.pairwise_map]
  refine List.Pairwise.imp_of_mem ?_ List.pairwise_lt_range
  intro step later _ member isBefore
  have inRuns := Nat.le_of_lt (List.mem_range.mp member)
  have shortLater := Nat.lt_of_le_of_lt (runTime_le inRuns) short
  have shortStep := Nat.lt_of_le_of_lt (runTime_le (Nat.le_of_lt isBefore)) shortLater
  rw [BitVec.le_def, toNat_runStamp shortStep, toNat_runStamp shortLater]
  exact runTime_le (Nat.le_of_lt isBefore)

/-- The file of a bus with a clock shows the values of its runs. -/
theorem clocked_playback
    (isProtocol : IsProtocol (buses port).name (buses port))
    (initialFits : (buses port).Fits)
    {runs : Nat}
    (fits : ∀ step < runs, ∀ sample ∈ samples step, sample.value.Fits)
    (steady : ∀ step < runs, Steady (samples step))
    (short : runTime options runs < 2 ^ 32)
    (few : Dump.Few buses port (clockedEvents options port samples runs)) :
    ∃ dump closed waveform,
      Dump.run buses (clockedEvents options port samples runs) = some dump ∧
        dump.finish = some closed ∧ readFile closed = some waveform ∧
        ∀ label ∈ (buses port).labels, ∀ time,
          waveform.value ((buses port).name.text ++ '.' :: label.lab.toList) time =
            some (Timeline.valueAt
              (traceFacility (buses port).name label).initial
              (signalHistory buses port label
                (clockedEvents options port samples runs)) time) := by
  obtain ⟨sound, steadyFirst⟩ := isProtocol.sound
  obtain ⟨dump, ran⟩ := @clocked_total options buses port samples sound initialFits
    runs fits
  have recorded := Dump.run_recorded sound steadyFirst few (clocked_rising short)
    (by
      intro time values member
      obtain ⟨step, inRuns, same⟩ := List.mem_map.mp member
      cases same
      exact steady step (List.mem_range.mp inRuns)) ran
  obtain ⟨closed, waveform, isClosed, isFile, values⟩ := recorded.playback few
  exact ⟨dump, closed, waveform, ran, isClosed, isFile, values⟩

end

/-! ## Values that come with every run -/

section

variable {name : CString}

theorem entry_of_ne
    {label : TraceLabel}
    {sample : Sample}
    (differ : sample.lab ≠ label.lab)
    (time : BitVec 64) :
    label.entry name (time, sample) = none :=
  if_neg fun own => differ own.1

theorem entries_of_ne
    {label : TraceLabel}
    {samples : List Sample}
    (differ : ∀ sample ∈ samples, sample.lab ≠ label.lab)
    (time : BitVec 64) :
    (samples.map (Prod.mk time)).filterMap (label.entry name) = [] := by
  rw [List.filterMap_eq_nil_iff]
  intro given member
  obtain ⟨sample, isSample, rfl⟩ := List.mem_map.mp member
  exact entry_of_ne (differ sample isSample) time

/-- A label has at most one value in a run that gives no label twice. -/
theorem entries_of_mem
    {label : TraceLabel}
    {samples : List Sample}
    (distinct : (samples.map (·.lab)).Nodup)
    {sample : Sample}
    (member : sample ∈ samples)
    (isLabel : sample.lab = label.lab)
    (time : BitVec 64) :
    (samples.map (Prod.mk time)).filterMap (label.entry name) =
      (label.entry name (time, sample)).toList := by
  obtain ⟨before, after, rfl⟩ := List.append_of_mem member
  rw [List.map_append, List.map_cons] at distinct
  obtain ⟨_, distinctAfter, across⟩ := List.nodup_append.mp distinct
  have differBefore : ∀ other ∈ before, other.lab ≠ label.lab := fun other isOther =>
    isLabel ▸ across _ (List.mem_map_of_mem isOther) _ List.mem_cons_self
  have differAfter : ∀ other ∈ after, other.lab ≠ label.lab := by
    intro other isOther same
    exact (List.nodup_cons.mp distinctAfter).1
      (isLabel.trans same.symm ▸ List.mem_map_of_mem isOther)
  rw [List.map_append, List.filterMap_append, entries_of_ne differBefore,
    List.map_cons, List.filterMap_cons, entries_of_ne differAfter]
  cases label.entry name (time, sample) <;> rfl

theorem len_bits
    (name : CString)
    (lab : String)
    {wid : Nat}
    (positive : 0 < wid)
    (traced : Traced wid) :
    (traceFacility name (.bits lab wid)).len = wid := by
  have isMsb : (BitVec.ofNat 32 wid - 1).toInt = (wid : Int) - 1 := by
    have small := traced.small
    have narrow : wid < 1025 := traced
    have atLeast : (1 : BitVec 32) ≤ BitVec.ofNat 32 wid := by
      rw [BitVec.le_def, BitVec.toNat_ofNat, Nat.mod_eq_of_lt small]
      exact positive
    have isNat : (BitVec.ofNat 32 wid - 1).toNat = wid - 1 := by
      rw [BitVec.toNat_sub_of_le atLeast, BitVec.toNat_ofNat, Nat.mod_eq_of_lt small]
      rfl
    rw [BitVec.toInt_eq_toNat_of_lt (by rw [isNat]; omega), isNat]
    omega
  change (if (BitVec.ofNat 32 wid - 1).toInt < (0 : BitVec 32).toInt then _ else
    ((BitVec.ofNat 32 wid - 1).toInt - (0 : BitVec 32).toInt + 1).toNat) = wid
  rw [isMsb]
  change (if (wid : Int) - 1 < 0 then _ else ((wid : Int) - 1 - 0 + 1).toNat) = wid
  rw [if_neg (by omega)]
  omega

theorem traced_bits
    (lab : String)
    {wid : Nat}
    (traced : Traced wid) :
    Traced (TraceLabel.bits lab wid).wid.toNat :=
  Nat.lt_of_le_of_lt (Nat.mod_le _ _) traced

/-- A label that can be traced has a length that does not overflow. -/
theorem inRange_of_traced
    (name : CString)
    {label : TraceLabel}
    (traced : Traced label.wid.toNat) :
    (traceFacility name label).InRange := by
  obtain ⟨lab, kind, wid⟩ := label
  cases kind with
  | string =>
      exact Nat.le_of_ble_eq_true rfl
  | bits =>
      by_cases isZero : wid.toNat = 0
      · obtain rfl : wid = 0 := BitVec.eq_of_toNat_eq isZero
        exact Nat.le_of_ble_eq_true rfl
      · have isLen := len_bits name lab (Nat.pos_of_ne_zero isZero) traced
        rw [TraceLabel.bits, BitVec.ofNat_toNat, BitVec.setWidth_eq] at isLen
        have narrow : wid.toNat < 1025 := traced
        rw [Lxt2.Facility.InRange, isLen]
        omega

theorem fits_of_traced
    {bus : TracedBus}
    (labels : ∀ label ∈ bus.labels, Traced label.wid.toNat)
    (values : ∀ sample ∈ bus.initial, sample.value.Fits) :
    bus.Fits where
  widths := by
    intro facility member
    obtain ⟨label, isLabel, rfl⟩ := List.mem_map.mp member
    exact inRange_of_traced bus.name (labels label isLabel)
  values := values

theorem lowerCase_bitChar (level : Logic4) :
    Lxt2.lowerCase (bitChar level) = bitChar level := by
  cases level <;> decide

/-- A vector is recorded in the width of its label, unless it is empty. -/
theorem entry_vector
    {lab : String}
    {wid : Nat}
    (positive : 0 < wid)
    (traced : Traced wid)
    (bits : Vector4)
    (time : BitVec 64) :
    (TraceLabel.bits lab wid).entry name (time, .vector lab bits) =
      if bits = [] then
        none
      else
        some (time, Lxt2.normalize wid (bits.reverse.map bitChar)) := by
  have isNil : bits.reverse.map bitChar = [] ↔ bits = [] := by
    rw [List.map_eq_nil_iff, List.reverse_eq_nil_iff]
  by_cases noBits : bits = []
  · rw [if_pos noBits]
    exact if_neg fun own => own.2.2 rfl (isNil.mpr noBits)
  · rw [if_neg noBits, TraceLabel.entry, if_pos ⟨rfl, rfl, fun _ none =>
      noBits (isNil.mp none)⟩]
    change some (time, Lxt2.normalize (traceFacility name (.bits lab wid)).len
      (bits.reverse.map bitChar)) = _
    rw [len_bits name lab positive traced]

/-- The digits of a vector that has the width of its label stay as they are. -/
theorem normalize_bitChars
    {wid : Nat}
    {bits : Vector4}
    (isWidth : bits.length = wid) :
    Lxt2.normalize wid (bits.reverse.map bitChar) = bits.reverse.map bitChar := by
  have isLength : (bits.reverse.map bitChar).length = wid := by
    rw [List.length_map, List.length_reverse, isWidth]
  rw [Lxt2.normalize, Lxt2.fixWidth, isLength, if_neg (Nat.lt_irrefl _), ← isLength,
    List.take_length, List.map_map]
  exact List.map_congr_left fun level _ => lowerCase_bitChar level

theorem entry_bit
    (lab : String)
    (level : Logic4)
    (time : BitVec 64) :
    (TraceLabel.bit lab).entry name (time, .bit lab level) =
      some (time, [bitChar level]) := by
  have traced : Traced 1 := by
    decide
  have isVector := @entry_vector name lab 1 Nat.one_pos traced [level] time
  have isOne : [level].length = 1 := rfl
  rw [if_neg (List.cons_ne_nil _ _), normalize_bitChars isOne] at isVector
  exact isVector

theorem entry_string
    (lab : String)
    (text : CString)
    (time : BitVec 64) :
    (TraceLabel.text lab).entry name (time, ⟨lab, .string text⟩) =
      some (time, text.text) :=
  if_pos ⟨rfl, rfl, fun isBits => by cases isBits⟩

/-- The history of a label is what the runs have for it, one after another. -/
theorem signalHistory_flatMap
    {options : ClockOptions}
    {buses : String → TracedBus}
    {port : String}
    {samples : Nat → List Sample}
    {label : TraceLabel}
    {runs : Nat}
    (short : runTime options runs < 2 ^ 32) :
    signalHistory buses port label (clockedEvents options port samples runs) =
      ((buses port).initial.map (Prod.mk 0)).filterMap
        (label.entry (buses port).name) ++
      (List.range runs).flatMap fun step =>
        ((samples step).map (Prod.mk (BitVec.ofNat 64 (runTime options step)))).filterMap
          (label.entry (buses port).name) := by
  induction runs with
  | zero =>
      rw [signalHistory, given, clockedEvents, List.range_zero, List.map_nil,
        List.flatMap_singleton, List.flatMap_nil, List.append_nil]
      change (if port = port then _ else _ : List _).filterMap _ = _
      rw [if_pos rfl]
  | succ runs inductionHypothesis =>
      have shortRuns := Nat.lt_of_le_of_lt (runTime_le (Nat.le_succ runs)) short
      have isGiven : (DumpEvent.busReady port (runStamp options runs)
          (samples runs)).given buses port =
            (samples runs).map (Prod.mk ((runStamp options runs).setWidth 64)) :=
        if_pos rfl
      rw [clockedEvents_succ, Dump.signalHistory_concat, inductionHypothesis shortRuns,
        isGiven, setWidth_runStamp shortRuns, List.range_succ, List.flatMap_append,
        List.flatMap_singleton, List.append_assoc]

/-- The history of a label for which a run has one value or none. -/
theorem signalHistory_clocked
    {options : ClockOptions}
    {buses : String → TracedBus}
    {port : String}
    {samples : Nat → List Sample}
    {label : TraceLabel}
    {value : Nat → Option Lxt2.Text}
    (each : ∀ step time, ((samples step).map (Prod.mk time)).filterMap
      (label.entry (buses port).name) = ((value step).map (Prod.mk time)).toList)
    {runs : Nat}
    (short : runTime options runs < 2 ^ 32) :
    signalHistory buses port label (clockedEvents options port samples runs) =
      ((buses port).initial.map (Prod.mk 0)).filterMap
        (label.entry (buses port).name) ++
      (List.range runs).filterMap fun step =>
        (value step).map (Prod.mk (BitVec.ofNat 64 (runTime options step))) := by
  rw [signalHistory_flatMap short]
  simp only [each]
  exact congrArg _ (List.filterMap_eq_flatMap_toList _ _).symm

/-- The history of a label for which a run has some bits or none. -/
theorem signalHistory_reported
    {options : ClockOptions}
    {buses : String → TracedBus}
    {port : String}
    {samples : Nat → List Sample}
    {label : TraceLabel}
    {bits : Nat → Vector4}
    {normal : Lxt2.Text → Lxt2.Text}
    (each : ∀ step time, ((samples step).map (Prod.mk time)).filterMap
      (label.entry (buses port).name) =
        (if bits step = [] then
          none
        else
          some (time, normal ((bits step).reverse.map bitChar))).toList)
    {runs : Nat}
    (short : runTime options runs < 2 ^ 32) :
    signalHistory buses port label (clockedEvents options port samples runs) =
      ((buses port).initial.map (Prod.mk 0)).filterMap
        (label.entry (buses port).name) ++
      (List.range runs).filterMap fun step =>
        if bits step = [] then
          none
        else
          some (BitVec.ofNat 64 (runTime options step),
            normal ((bits step).reverse.map bitChar)) := by
  let value (step : Nat) : Option Lxt2.Text :=
    if bits step = [] then
      none
    else
      some (normal ((bits step).reverse.map bitChar))
  have stamps : ∀ step (time : BitVec 64), (value step).map (Prod.mk time) =
      if bits step = [] then
        none
      else
        some (time, normal ((bits step).reverse.map bitChar)) := by
    intro step time
    simp only [value]
    split <;> rfl
  have eachValue : ∀ step time, ((samples step).map (Prod.mk time)).filterMap
      (label.entry (buses port).name) =
        ((value step).map (Prod.mk time)).toList := by
    intro step time
    rw [stamps]
    exact each step time
  rw [signalHistory_clocked eachValue short]
  simp only [stamps]

end

end Simbus.Service
