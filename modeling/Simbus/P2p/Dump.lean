import Simbus.Service.DumpServer
import Mathlib

/-!
# The trace file of a point-to-point bus

What a point-to-point bus passes on in its runs is what its trace file shows: the
clock, the clock mode and the data of either direction.
-/

set_option autoImplicit false

namespace Simbus.P2p

open FourValued (Logic4)
open Lxt2 (CString Waveform readFile)
open Service

/-! ## What a run traces -/

namespace PointToPoint

/-- The calls of `set_trace_` at the end of `run_run`. -/
def samples
    (proto : PointToPoint)
    (master slave : SignalMap String) : List Sample :=
  [.bit "CLOCK" proto.clock.busClk,
    ⟨"CLOCK_MODE", .string (clockModeString proto.masterClockMode)⟩] ++
    (if proto.widO ≠ 0 then
      [.vector "DATA_O" (copyData proto.widO (master "DATA_O"))]
    else
      []) ++
    (if proto.widI ≠ 0 then
      [.vector "DATA_I" (copyData proto.widI (slave "DATA_I"))]
    else
      [])

/-- The protocol after some runs, with what host and device report for each. -/
def afterRuns
    (proto : PointToPoint)
    (reports : Nat → SignalMap String × SignalMap String) :
    Nat → Option PointToPoint
  | 0 => some proto
  | step + 1 =>
      (afterRuns proto reports step).bind fun proto =>
        (proto.runRun (reports step).1 (reports step).2).map Prod.fst

/-- What is traced in a run; nothing if the protocol has failed. -/
def tracedIn
    (proto : PointToPoint)
    (reports : Nat → SignalMap String × SignalMap String)
    (step : Nat) : List Sample :=
  match afterRuns proto reports (step + 1) with
  | some next => next.samples (reports step).1 (reports step).2
  | none => []

end PointToPoint

section

variable {options : ClockOptions}
variable {proto : PointToPoint}
variable {widO widI : Nat}
variable {reports : Nat → SignalMap String × SignalMap String}

/-- The clock goes on, and the mode is the one that the host has asked for last. -/
theorem afterRuns_eq
    (isMade : PointToPoint.make options widO widI = some proto)
    (tracedO : Traced widO)
    (tracedI : Traced widI)
    (step : Nat) :
    proto.afterRuns reports (step + 1) =
      some
        { clock := BusClock.advanced options (step + 1)
          masterClockMode := PointToPoint.modeOf ((reports step).1 "CLOCK_MODE")
          widO := widO
          widI := widI } := by
  have isStart : proto = ⟨BusClock.advanced options 0, .run, widO, widI⟩ := by
    rw [PointToPoint.make, Option.map_eq_some_iff] at isMade
    obtain ⟨clock, isClock, rfl⟩ := isMade
    rw [eq_advanced_of_make isClock]
  induction step with
  | zero =>
      have canTrace : proto.CanTrace := by
        rw [isStart]
        exact ⟨tracedO, tracedI⟩
      rw [PointToPoint.afterRuns, PointToPoint.afterRuns, Option.bind_some,
        PointToPoint.runRun_of_canTrace canTrace, isStart]
      rfl
  | succ step inductionHypothesis =>
      rw [PointToPoint.afterRuns, inductionHypothesis, Option.bind_some,
        PointToPoint.runRun_of_canTrace ⟨tracedO, tracedI⟩]
      rfl

/-- What a run traces is what it sends, and the mode that is asked for. -/
theorem tracedIn_eq
    (isMade : PointToPoint.make options widO widI = some proto)
    (tracedO : Traced widO)
    (tracedI : Traced widI)
    (step : Nat) :
    proto.tracedIn reports step =
      [.bit "CLOCK" (BusClock.advanced options (step + 1)).busClk,
        ⟨"CLOCK_MODE", .string (clockModeString
          (PointToPoint.modeOf ((reports step).1 "CLOCK_MODE")))⟩] ++
        (if widO ≠ 0 then
          [.vector "DATA_O"
            (PointToPoint.copyData widO ((reports step).1 "DATA_O"))]
        else
          []) ++
        (if widI ≠ 0 then
          [.vector "DATA_I"
            (PointToPoint.copyData widI ((reports step).2 "DATA_I"))]
        else
          []) := by
  rw [PointToPoint.tracedIn, afterRuns_eq isMade tracedO tracedI]
  rfl

/-- No label comes twice in a run. -/
theorem tracedIn_distinct
    (isMade : PointToPoint.make options widO widI = some proto)
    (tracedO : Traced widO)
    (tracedI : Traced widI)
    (step : Nat) :
    ((proto.tracedIn reports step).map (·.lab)).Nodup := by
  rw [tracedIn_eq isMade tracedO tracedI]
  have isPart : (["CLOCK", "CLOCK_MODE"] ++
      (if widO ≠ 0 then ["DATA_O"] else []) ++
      (if widI ≠ 0 then ["DATA_I"] else [])).Nodup := by
    split <;> split <;> decide
  convert isPart using 1
  split <;> split <;> rfl

theorem tracedIn_fits
    (isMade : PointToPoint.make options widO widI = some proto)
    (tracedO : Traced widO)
    (tracedI : Traced widI)
    (step : Nat) :
    ∀ sample ∈ proto.tracedIn reports step, sample.value.Fits := by
  rw [tracedIn_eq isMade tracedO tracedI]
  intro sample member
  rcases List.mem_append.mp member with member | isDataI
  · rcases List.mem_append.mp member with isClock | isDataO
    · rcases List.mem_cons.mp isClock with rfl | isMode
      · trivial
      · rw [List.mem_singleton.mp isMode]
        trivial
    · split at isDataO
      · rw [List.mem_singleton.mp isDataO]
        change Traced (PointToPoint.copyData _ _).length
        rwa [PointToPoint.length_copyData]
      · cases isDataO
  · split at isDataI
    · rw [List.mem_singleton.mp isDataI]
      change Traced (PointToPoint.copyData _ _).length
      rwa [PointToPoint.length_copyData]
    · cases isDataI

/-- The values of the labels in a run. -/
theorem tracedIn_entries
    (isMade : PointToPoint.make options widO widI = some proto)
    (tracedO : Traced widO)
    (tracedI : Traced widI)
    (name : CString)
    (step : Nat)
    (time : BitVec 64) :
    let values := (proto.tracedIn reports step).map (Prod.mk time)
    values.filterMap (TraceLabel.entry name (.bit "CLOCK")) =
        [(time, [bitChar (BusClock.advanced options (step + 1)).busClk])] ∧
      values.filterMap (TraceLabel.entry name (.text "CLOCK_MODE")) =
        [(time, (clockModeString
          (PointToPoint.modeOf ((reports step).1 "CLOCK_MODE"))).text)] ∧
      (0 < widO →
        values.filterMap (TraceLabel.entry name (.bits "DATA_O" widO)) =
          [(time, (PointToPoint.copyData widO
            ((reports step).1 "DATA_O")).reverse.map bitChar)]) ∧
      (0 < widI →
        values.filterMap (TraceLabel.entry name (.bits "DATA_I" widI)) =
          [(time, (PointToPoint.copyData widI
            ((reports step).2 "DATA_I")).reverse.map bitChar)]) := by
  intro values
  have distinct := @tracedIn_distinct options proto widO widI reports isMade tracedO
    tracedI step
  have isTraced := @tracedIn_eq options proto widO widI reports isMade tracedO
    tracedI step
  have member : ∀ sample ∈ proto.tracedIn reports step, ∀ label : TraceLabel,
      sample.lab = label.lab → values.filterMap (label.entry name) =
        (label.entry name (time, sample)).toList := fun sample isSample label same =>
    entries_of_mem distinct isSample same time
  rw [isTraced] at member
  refine ⟨?_, ?_, ?_, ?_⟩
  · rw [member _ (List.mem_append_left _ (List.mem_append_left _ List.mem_cons_self))
      (.bit "CLOCK") rfl, entry_bit]
    rfl
  · rw [member _ (List.mem_append_left _ (List.mem_append_left _
      (List.mem_cons_of_mem _ List.mem_cons_self))) (.text "CLOCK_MODE") rfl,
      entry_string]
    rfl
  · intro positive
    have width := PointToPoint.length_copyData widO ((reports step).1 "DATA_O")
    have someBits := List.ne_nil_of_length_pos (width.symm ▸ positive)
    rw [if_pos positive.ne'] at member
    rw [member _ (List.mem_append_left _ (List.mem_append_right _ List.mem_cons_self))
      (.bits "DATA_O" widO) rfl, entry_vector positive tracedO, if_neg someBits,
      normalize_bitChars width]
    rfl
  · intro positive
    have width := PointToPoint.length_copyData widI ((reports step).2 "DATA_I")
    have someBits := List.ne_nil_of_length_pos (width.symm ▸ positive)
    rw [if_pos positive.ne'] at member
    rw [member _ (List.mem_append_right _ List.mem_cons_self)
      (.bits "DATA_I" widI) rfl, entry_vector positive tracedI, if_neg someBits,
      normalize_bitChars width]
    rfl

theorem length_tracedIn_le
    (isMade : PointToPoint.make options widO widI = some proto)
    (tracedO : Traced widO)
    (tracedI : Traced widI)
    (step : Nat) :
    (proto.tracedIn reports step).length ≤ 4 := by
  rw [tracedIn_eq isMade tracedO tracedI]
  split <;> split <;> simp

/-! ## The file -/

/-- The server runs one bus. -/
abbrev onlyBus (name : CString) (proto : PointToPoint) : String → TracedBus :=
  fun _ => pointToPoint name proto

/-- There are few enough values for the numbers of the file. -/
theorem few_of_runs
    (isMade : PointToPoint.make options widO widI = some proto)
    (tracedO : Traced widO)
    (tracedI : Traced widI)
    (name : CString)
    (port : String)
    {runs : Nat}
    (fewRuns : runs + 6 ≤ 2 ^ 30) :
    Dump.Few (onlyBus name proto) port
      (clockedEvents options port (proto.tracedIn reports) runs) := by
  have fewLabels : (pointToPointLabels proto.widI proto.widO).length ≤ 4 := by
    rw [pointToPointLabels]
    split <;> split <;> simp
  have atMost : (given (onlyBus name proto) port (clockedEvents options port
      (proto.tracedIn reports) runs)).length ≤ 2 + 4 * runs :=
    length_given_clocked_le (length_tracedIn_le isMade tracedO tracedI) runs
  constructor
  · change (pointToPointLabels proto.widI proto.widO).length + _ + 18 ≤ 256 ^ 4
    omega
  · exact Nat.lt_of_le_of_lt fewLabels (by decide)

/--
The clock of the host, the mode that the host has asked for and the data of host
and device, each at the time of the run in which they were passed on.
-/
structure ShowsRuns
    (name : CString)
    (options : ClockOptions)
    (widO widI : Nat)
    (reports : Nat → SignalMap String × SignalMap String)
    (runs : Nat)
    (waveform : Waveform) : Prop where
  clock : ∀ time, waveform.value (name.text ++ ".CLOCK".toList) time =
    some (Timeline.valueAt ['x'] ((0, ['1']) ::
      (List.range runs).map fun step =>
        (BitVec.ofNat 64 (runTime options step),
          [bitChar (BusClock.advanced options (step + 1)).busClk])) time)
  clockMode : ∀ time, waveform.value (name.text ++ ".CLOCK_MODE".toList) time =
    some (Timeline.valueAt [] ((0, "Run".toList) ::
      (List.range runs).map fun step =>
        (BitVec.ofNat 64 (runTime options step),
          (clockModeString
            (PointToPoint.modeOf ((reports step).1 "CLOCK_MODE"))).text)) time)
  dataO : 0 < widO → ∀ time,
    waveform.value (name.text ++ ".DATA_O".toList) time =
      some (Timeline.valueAt (List.replicate widO 'x')
        ((List.range runs).map fun step =>
          (BitVec.ofNat 64 (runTime options step),
            (PointToPoint.copyData widO
              ((reports step).1 "DATA_O")).reverse.map bitChar)) time)
  dataI : 0 < widI → ∀ time,
    waveform.value (name.text ++ ".DATA_I".toList) time =
      some (Timeline.valueAt (List.replicate widI 'x')
        ((List.range runs).map fun step =>
          (BitVec.ofNat 64 (runTime options step),
            (PointToPoint.copyData widI
              ((reports step).2 "DATA_I")).reverse.map bitChar)) time)

theorem pointToPointLabels_traced
    (tracedI : Traced widI)
    (tracedO : Traced widO) :
    ∀ label ∈ pointToPointLabels widI widO, Traced label.wid.toNat := by
  intro label member
  rw [pointToPointLabels, List.mem_append, List.mem_append] at member
  rcases member with (isFixed | isInput) | isOutput
  · revert isFixed label
    decide
  · split at isInput
    · rw [List.mem_singleton.mp isInput]
      exact traced_bits _ tracedI
    · cases isInput
  · split at isOutput
    · rw [List.mem_singleton.mp isOutput]
      exact traced_bits _ tracedO
    · cases isOutput

/-- The trace file of a point-to-point bus shows its runs. -/
theorem pointToPoint_playback
    (isMade : PointToPoint.make options widO widI = some proto)
    (tracedO : Traced widO)
    (tracedI : Traced widI)
    (name : CString)
    (port : String)
    (reports : Nat → SignalMap String × SignalMap String)
    {runs : Nat}
    (short : runTime options runs < 2 ^ 32)
    (fewRuns : runs + 6 ≤ 2 ^ 30) :
    ∃ dump closed waveform,
      Dump.run (onlyBus name proto)
          (clockedEvents options port (proto.tracedIn reports) runs) = some dump ∧
        dump.finish = some closed ∧ readFile closed = some waveform ∧
        ShowsRuns name options widO widI reports runs waveform := by
  have isProto : proto.masterClockMode = .run ∧ proto.widO = widO ∧
      proto.widI = widI := by
    rw [PointToPoint.make, Option.map_eq_some_iff] at isMade
    obtain ⟨clock, _, rfl⟩ := isMade
    exact ⟨rfl, rfl, rfl⟩
  obtain ⟨isRun, isWidO, isWidI⟩ := isProto
  have labels : (onlyBus name proto port).labels = pointToPointLabels widI widO := by
    rw [← isWidO, ← isWidI]
    rfl
  have initial : (onlyBus name proto port).initial =
      [.bit "CLOCK" .one, ⟨"CLOCK_MODE", .string (clockModeString .run)⟩] := by
    rw [← isRun]
    rfl
  have initialFits : (onlyBus name proto port).Fits := by
    refine fits_of_traced ?_ ?_
    · rw [labels]
      exact pointToPointLabels_traced tracedI tracedO
    · rw [initial]
      intro sample member
      rcases List.mem_cons.mp member with rfl | isMode
      · trivial
      · rw [List.mem_singleton.mp isMode]
        trivial
  have entries := @tracedIn_entries options proto widO widI reports isMade tracedO
    tracedI name
  obtain ⟨dump, closed, waveform, ran, isClosed, isFile, values⟩ :=
    @clocked_playback options (onlyBus name proto) port (proto.tracedIn reports)
      (.pointToPoint proto) initialFits runs
      (fun step _ => tracedIn_fits isMade tracedO tracedI step)
      (fun step _ => steady_of_nodup
        (tracedIn_distinct isMade tracedO tracedI step)) short
      (few_of_runs isMade tracedO tracedI name port fewRuns)
  have history : ∀ {label : TraceLabel} {value : Nat → Lxt2.Text},
      (∀ step time, ((proto.tracedIn reports step).map (Prod.mk time)).filterMap
        (label.entry name) = [(time, value step)]) →
      signalHistory (onlyBus name proto) port label (clockedEvents options port
        (proto.tracedIn reports) runs) =
          ((onlyBus name proto port).initial.map (Prod.mk 0)).filterMap
            (label.entry name) ++
          (List.range runs).map fun step =>
            (BitVec.ofNat 64 (runTime options step), value step) := by
    intro label value each
    refine (@signalHistory_clocked options (onlyBus name proto) port
      (proto.tracedIn reports) label (fun step => some (value step)) each runs
      short).trans ?_
    exact congrArg _ (congrFun List.filterMap_eq_map' _)
  rw [labels] at values
  refine ⟨dump, closed, waveform, ran, isClosed, isFile, ?_, ?_, ?_, ?_⟩
  · intro time
    have isValue := values (.bit "CLOCK") List.mem_cons_self time
    rw [history (fun step time => (entries step time).1)] at isValue
    exact isValue
  · intro time
    have isValue := values (.text "CLOCK_MODE")
      (List.mem_cons_of_mem _ List.mem_cons_self) time
    rw [history (fun step time => (entries step time).2.1), initial] at isValue
    exact isValue
  · intro positive time
    have isValue := values (.bits "DATA_O" widO) (by
      rw [pointToPointLabels, if_pos positive]
      exact List.mem_append_right _ List.mem_cons_self) time
    have differ : ∀ sample ∈ (onlyBus name proto port).initial,
        sample.lab ≠ "DATA_O" := by
      rw [initial]
      simp [Sample.bit]
    rw [history (fun step time => (entries step time).2.2.1 positive),
      entries_of_ne differ, List.nil_append, Lxt2.Facility.initial,
      len_bits _ _ positive tracedO] at isValue
    change waveform.value (name.text ++ '.' :: "DATA_O".toList) time = _ at isValue
    exact isValue
  · intro positive time
    have isValue := values (.bits "DATA_I" widI) (by
      rw [pointToPointLabels, if_pos positive]
      exact List.mem_append_left _ (List.mem_append_right _ List.mem_cons_self)) time
    have differ : ∀ sample ∈ (onlyBus name proto port).initial,
        sample.lab ≠ "DATA_I" := by
      rw [initial]
      simp [Sample.bit]
    rw [history (fun step time => (entries step time).2.2.2 positive),
      entries_of_ne differ, List.nil_append, Lxt2.Facility.initial,
      len_bits _ _ positive tracedI] at isValue
    change waveform.value (name.text ++ '.' :: "DATA_I".toList) time = _ at isValue
    exact isValue

/--
The trace file of a server with one point-to-point bus shows the runs of the bus,
in every turn after the bus has been assembled.
-/
theorem server_playback
    (isMade : PointToPoint.make options widO widI = some proto)
    (tracedO : Traced widO)
    (tracedI : Traced widI)
    (name : CString)
    {config : Config}
    {port : String}
    (isOnly : config.ports = [port])
    {clockPhaseMaps : String → Fin 4 → BitVec 64}
    (isClock : clockPhaseMaps port = (BusClock.ofOptions options).clockPhaseMap)
    {inputs : Nat → Selection}
    {turn : Nat}
    {dumped : DumpedServer}
    (reached : dumpedRun config clockPhaseMaps (fun _ => proto.tracedIn reports)
      inputs turn = some dumped)
    (isAssembled :
      (dumped.traced.server.busMap port).needInitialization = false)
    (short : runTime options (dumped.ran port) < 2 ^ 32)
    (fewRuns : dumped.ran port + 6 ≤ 2 ^ 30) :
    ∃ dump closed waveform,
      Dump.run (onlyBus name proto) dumped.events = some dump ∧
        dump.finish = some closed ∧ readFile closed = some waveform ∧
        ShowsRuns name options widO widI reports (dumped.ran port) waveform := by
  have oneClock := dumpedRun_events isOnly isClock reached
  rw [oneClock.running isAssembled]
  exact pointToPoint_playback isMade tracedO tracedI name port reports short fewRuns

end

/-- A host and a device on one bus. -/
def hostAndDevice : Config where
  ports := ["tcp:1"]
  portsDistinct := onePort_distinct
  devices := fun _ => ["device", "host"]

/-- Both connect and report once. -/
def bothReady : Nat → Selection
  | 0 => Service.turn (some 3) 3 []
  | 1 => Service.turn (some 4) 3 [.hello "host"]
  | 2 => Service.turn none 4 [.hello "device"]
  | 3 => Service.turn none 3 [.ready]
  | _ => Service.turn none 4 [.ready]

/-- A host that reports data finds it in the file. -/
theorem server_playback_data :
    ∃ name options proto dumped dump closed waveform, ∃ reports : Nat → _,
      name.text = ['p'] ∧
        PointToPoint.make options 4 0 = some proto ∧
        (∀ step, (reports step).1 "DATA_O" = [.one, .zero, .zero, .z]) ∧
        dumpedRun hostAndDevice
          (fun _ => (BusClock.ofOptions options).clockPhaseMap)
          (fun _ => proto.tracedIn reports) bothReady 5 = some dumped ∧
        Dump.run (onlyBus name proto) dumped.events = some dump ∧
        dump.finish = some closed ∧ readFile closed = some waveform ∧
        waveform.value (name.text ++ ".DATA_O".toList) 7 =
          some ['z', '0', '0', '1'] := by
  let name : CString := ⟨['p'], by decide⟩
  let options : ClockOptions := ⟨5000, 5000, 1000, 1000⟩
  let proto : PointToPoint := ⟨BusClock.ofOptions options, .run, 4, 0⟩
  let reports : Nat → SignalMap String × SignalMap String := fun _ =>
    (fun _ => [.one, .zero, .zero, .z], fun _ => [])
  have accepted : options.Accepted := by
    decide
  have isMade : PointToPoint.make options 4 0 = some proto := by
    rw [PointToPoint.make, BusClock.make, if_pos accepted]
    rfl
  have turns : (dumpedRun hostAndDevice
      (fun _ => (BusClock.ofOptions options).clockPhaseMap)
      (fun _ => proto.tracedIn reports) bothReady 5).any (fun dumped =>
        !(dumped.traced.server.busMap "tcp:1").needInitialization &&
          dumped.ran "tcp:1" == 1) = true := by
    decide +kernel
  obtain ⟨dumped, reached, facts⟩ := (Option.any_eq_true _ _).mp turns
  rw [Bool.and_eq_true, Bool.not_eq_true', beq_iff_eq] at facts
  obtain ⟨isAssembled, isOnce⟩ := facts
  obtain ⟨dump, closed, waveform, ran, isClosed, isFile, shows⟩ :=
    server_playback isMade (by decide) (by decide) name rfl rfl reached isAssembled
      (by rw [isOnce]; decide) (by rw [isOnce]; decide)
  have isValue := shows.dataO (by decide) 7
  rw [isOnce] at isValue
  have isLast : Timeline.valueAt (List.replicate 4 'x')
      ((List.range 1).map fun step =>
        (BitVec.ofNat 64 (runTime ⟨5000, 5000, 1000, 1000⟩ step),
          ['z', '0', '0', '1'])) (7 : BitVec 64) = ['z', '0', '0', '1'] := by
    decide
  exact ⟨name, options, proto, dumped, dump, closed, waveform, reports, rfl, isMade,
    fun _ => rfl, reached, ran, isClosed, isFile,
    isValue.trans (congrArg some isLast)⟩

end Simbus.P2p
