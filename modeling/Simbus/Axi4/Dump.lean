import Simbus.Axi4.Server
import Simbus.Service.DumpServer
import Mathlib

/-!
# The trace file of an AXI4 bus

An AXI4 bus passes every signal on in the width that its options say, and its trace
file shows what the ends have reported.  The label of ARID has the width of RID, and
so the trace of ARID has that width, whatever the width of the signal is.
-/

set_option autoImplicit false

namespace Simbus.Axi4

open FourValued (Logic4)
open Lxt2 (CString Waveform readFile)
open Service

/-! ## What a run traces -/

/-- The signals in the order of `run_run`. -/
def runSignals (widths : Widths) : List (MasterSignal ⊕ SlaveSignal) :=
  [.inl .aresetN,
    .inl .awvalid, .inr .awready, .inl .awaddr, .inl .awlen, .inl .awsize,
    .inl .awburst, .inl .awlock, .inl .awcache, .inl .awprot, .inl .awqos,
    .inl .awid,
    .inl .wvalid, .inr .wready, .inl .wdata, .inl .wstrb,
    .inr .bvalid, .inl .bready, .inr .bresp, .inr .bid,
    .inl .arvalid, .inr .arready, .inl .araddr, .inl .arlen, .inl .arsize,
    .inl .arburst, .inl .arlock, .inl .arcache, .inl .arprot, .inl .arqos,
    .inl .arid,
    .inr .rvalid, .inl .rready, .inr .rdata, .inr .rresp, .inr .rid] ++
    (if 0 < widths.irqWidth then [.inr .irq] else [])

/-- The name of a signal. -/
def signalName : MasterSignal ⊕ SlaveSignal → String
  | .inl signal => signal.name
  | .inr signal => signal.name

/-- What the end that drives a signal has reported. -/
def reportedBits
    (master slave : SignalMap String) :
    MasterSignal ⊕ SlaveSignal → Vector4
  | .inl signal => master signal.name
  | .inr signal => slave signal.name

/-- The call of `set_trace_` in `run_master_to_slave_` and `run_slave_to_master_`. -/
def passedSample (lab : String) : Vector4 → Sample
  | [level] => .bit lab level
  | bits => .vector lab bits

namespace AXI4Protocol

/-- The calls of `set_trace_` in `run_run`. -/
def samples
    (proto : AXI4Protocol)
    (master slave : SignalMap String) : List Sample :=
  .bit "ACLK" proto.clock.busClk ::
    (runSignals proto.widths).map fun signal =>
      passedSample (signalName signal) (reportedBits master slave signal)

/-- The protocol after some runs, with what both ends report for each. -/
def afterRuns
    (proto : AXI4Protocol)
    (reports : Nat → SignalMap String × SignalMap String) :
    Nat → Option AXI4Protocol
  | 0 => some proto
  | step + 1 =>
      (afterRuns proto reports step).bind fun proto =>
        (proto.runRun (reports step).1 (reports step).2).map Prod.fst

/-- What is traced in a run; nothing if the protocol has failed. -/
def tracedIn
    (proto : AXI4Protocol)
    (reports : Nat → SignalMap String × SignalMap String)
    (step : Nat) : List Sample :=
  match afterRuns proto reports (step + 1) with
  | some next => next.samples (reports step).1 (reports step).2
  | none => []

/-- The assertions of `run_run` hold of what the ends report. -/
structure Passes (widths : Widths) (master slave : SignalMap String) : Prop where
  canTrace : CanTrace widths
  master : ∀ signal : MasterSignal,
    (master signal.name).length = masterBits widths signal
  slave : ∀ signal : SlaveSignal, signal ≠ .irq ∨ 0 < widths.irqWidth →
    (slave signal.name).length = slaveBits widths signal

end AXI4Protocol

/-- The label of a signal; that of ARID is made with the width of RID. -/
def signalLabel (widths : Widths) : MasterSignal ⊕ SlaveSignal → TraceLabel
  | .inl .arid => .bits "ARID" widths.ridWidth
  | .inl signal => .bits signal.name (masterBits widths signal)
  | .inr signal => .bits signal.name (slaveBits widths signal)

theorem signalLabel_lab (widths : Widths) (signal : MasterSignal ⊕ SlaveSignal) :
    (signalLabel widths signal).lab = signalName signal := by
  rcases signal with signal | signal
  · cases signal <;> rfl
  · rfl

theorem signalLabel_kind (widths : Widths) (signal : MasterSignal ⊕ SlaveSignal) :
    (signalLabel widths signal).kind = .bits := by
  rcases signal with signal | signal
  · cases signal <;> rfl
  · rfl

/-- There is a label for every signal and for the clock, in the same order. -/
theorem axi4Labels_eq (widths : Widths) :
    axi4Labels widths =
      .bit "ACLK" :: (runSignals widths).map (signalLabel widths) := by
  rw [axi4Labels, runSignals]
  split <;> rfl

section

variable {options : ClockOptions}
variable {widths : Widths}
variable {proto : AXI4Protocol}
variable {reports : Nat → SignalMap String × SignalMap String}

/-- The clock goes on while the assertions hold. -/
theorem afterRuns_eq
    (isProto : proto = ⟨BusClock.advanced options 0, widths⟩)
    (passes : ∀ step,
      AXI4Protocol.Passes widths (reports step).1 (reports step).2)
    (step : Nat) :
    proto.afterRuns reports step = some ⟨BusClock.advanced options step, widths⟩ := by
  induction step with
  | zero =>
      rw [AXI4Protocol.afterRuns, isProto]
  | succ step inductionHypothesis =>
      obtain ⟨canTrace, fromMaster, fromSlave⟩ := passes step
      have holds : CanTrace widths ∧
          (∀ signal, (AXI4Protocol.masterTexts (reports step).1 signal).length =
            masterBits widths signal) ∧
          ∀ signal, signal ≠ .irq ∨ 0 < widths.irqWidth →
            (AXI4Protocol.slaveTexts (reports step).2 signal).length =
              slaveBits widths signal := by
        refine ⟨canTrace, fun signal => ?_, fun signal isDriven => ?_⟩
        · exact (List.length_reverse).trans (fromMaster signal)
        · exact (List.length_reverse).trans (fromSlave signal isDriven)
      rw [AXI4Protocol.afterRuns, inductionHypothesis, Option.bind_some,
        AXI4Protocol.runRun, Axi4.runRun, if_pos holds]
      rfl

theorem tracedIn_eq
    (isProto : proto = ⟨BusClock.advanced options 0, widths⟩)
    (passes : ∀ step,
      AXI4Protocol.Passes widths (reports step).1 (reports step).2)
    (step : Nat) :
    proto.tracedIn reports step =
      .bit "ACLK" (BusClock.advanced options (step + 1)).busClk ::
        (runSignals widths).map fun signal =>
          passedSample (signalName signal)
            (reportedBits (reports step).1 (reports step).2 signal) := by
  rw [AXI4Protocol.tracedIn, afterRuns_eq isProto passes]
  rfl

theorem passedSample_lab (lab : String) (bits : Vector4) :
    (passedSample lab bits).lab = lab := by
  rcases bits with _ | ⟨level, _ | ⟨other, bits⟩⟩ <;> rfl

theorem passedSample_text (lab : String) (bits : Vector4) :
    (passedSample lab bits).value.text = bits.reverse.map bitChar := by
  rcases bits with _ | ⟨level, _ | ⟨other, bits⟩⟩ <;> rfl

theorem passedSample_kind (lab : String) (bits : Vector4) :
    (passedSample lab bits).value.kind = .bits := by
  rcases bits with _ | ⟨level, _ | ⟨other, bits⟩⟩ <;> rfl

theorem passedSample_fits
    (lab : String)
    {bits : Vector4}
    (traced : Traced bits.length) :
    (passedSample lab bits).value.Fits := by
  rcases bits with _ | ⟨level, _ | ⟨other, bits⟩⟩
  · exact traced
  · trivial
  · exact traced

/-- A passed vector is recorded in the width of its label, unless it is empty. -/
theorem entry_passed
    (name : CString)
    {label : TraceLabel}
    (isBits : label.kind = .bits)
    (bits : Vector4)
    (time : BitVec 64) :
    label.entry name (time, passedSample label.lab bits) =
      if bits = [] then
        none
      else
        some (time, (traceFacility name label).normal (bits.reverse.map bitChar)) := by
  have isNil : bits.reverse.map bitChar = [] ↔ bits = [] := by
    rw [List.map_eq_nil_iff, List.reverse_eq_nil_iff]
  have isText := passedSample_text label.lab bits
  have isKind := passedSample_kind label.lab bits
  by_cases noBits : bits = []
  · rw [if_pos noBits]
    exact if_neg fun own => own.2.2 isKind (isText.trans (isNil.mpr noBits))
  · have own : (passedSample label.lab bits).lab = label.lab ∧
        (passedSample label.lab bits).value.kind = label.kind ∧
          (passedSample label.lab bits).value.Counts :=
      ⟨passedSample_lab _ _, isKind.trans isBits.symm,
        fun _ none => noBits (isNil.mp (isText.symm.trans none))⟩
    rw [TraceLabel.entry, if_pos own, if_neg noBits, isText]

/-- No label comes twice in a run. -/
theorem tracedIn_distinct
    (isProto : proto = ⟨BusClock.advanced options 0, widths⟩)
    (passes : ∀ step,
      AXI4Protocol.Passes widths (reports step).1 (reports step).2)
    (step : Nat) :
    ((proto.tracedIn reports step).map (·.lab)).Nodup := by
  have labs : (proto.tracedIn reports step).map (·.lab) =
      "ACLK" :: (runSignals widths).map signalName := by
    rw [tracedIn_eq isProto passes, List.map_cons, List.map_map]
    exact congrArg (List.cons "ACLK")
      (List.map_congr_left fun signal _ => passedSample_lab _ _)
  rw [labs, runSignals]
  split <;> decide

/-- The widths of what is passed on. -/
theorem reportedBits_traced
    {master slave : SignalMap String}
    (passes : AXI4Protocol.Passes widths master slave)
    {signal : MasterSignal ⊕ SlaveSignal}
    (member : signal ∈ runSignals widths) :
    Traced (reportedBits master slave signal).length := by
  obtain ⟨canTrace, fromMaster, fromSlave⟩ := passes
  have part : Traced (widths.dataWidth / 8) :=
    Nat.lt_of_le_of_lt (Nat.div_le_self _ _) canTrace.data
  rcases signal with signal | signal
  · rw [reportedBits, fromMaster signal]
    cases signal with
    | wdata => exact canTrace.data
    | wstrb => exact part
    | awaddr => exact canTrace.addr
    | araddr => exact canTrace.addr
    | awid => exact canTrace.wid
    | arid => exact canTrace.wid
    | _ =>
        rw [masterBits]
        decide
  · have isDriven : signal ≠ .irq ∨ 0 < widths.irqWidth := by
      by_cases some_ : 0 < widths.irqWidth
      · exact .inr some_
      · rw [runSignals, if_neg some_] at member
        refine .inl ?_
        rintro rfl
        simp at member
    rw [reportedBits, fromSlave signal isDriven]
    cases signal with
    | rdata => exact canTrace.data
    | bid => exact canTrace.wid
    | rid => exact canTrace.rid
    | irq => exact canTrace.irq
    | _ =>
        rw [slaveBits]
        decide

theorem tracedIn_fits
    (isProto : proto = ⟨BusClock.advanced options 0, widths⟩)
    (passes : ∀ step,
      AXI4Protocol.Passes widths (reports step).1 (reports step).2)
    (step : Nat) :
    ∀ sample ∈ proto.tracedIn reports step, sample.value.Fits := by
  rw [tracedIn_eq isProto passes]
  intro sample member
  rcases List.mem_cons.mp member with rfl | isPassed
  · trivial
  · obtain ⟨signal, isSignal, rfl⟩ := List.mem_map.mp isPassed
    exact passedSample_fits _ (reportedBits_traced (passes step) isSignal)

theorem length_runSignals_le (widths : Widths) : (runSignals widths).length ≤ 37 := by
  rw [runSignals]
  split <;> decide

theorem length_tracedIn_le
    (isProto : proto = ⟨BusClock.advanced options 0, widths⟩)
    (passes : ∀ step,
      AXI4Protocol.Passes widths (reports step).1 (reports step).2)
    (step : Nat) :
    (proto.tracedIn reports step).length ≤ 38 := by
  rw [tracedIn_eq isProto passes, List.length_cons, List.length_map]
  exact Nat.succ_le_succ (length_runSignals_le widths)

/-- What a run has for the clock and for a signal. -/
theorem tracedIn_entries
    (isProto : proto = ⟨BusClock.advanced options 0, widths⟩)
    (passes : ∀ step,
      AXI4Protocol.Passes widths (reports step).1 (reports step).2)
    (name : CString)
    (step : Nat)
    (time : BitVec 64) :
    let values := (proto.tracedIn reports step).map (Prod.mk time)
    values.filterMap (TraceLabel.entry name (.bit "ACLK")) =
        [(time, [bitChar (BusClock.advanced options (step + 1)).busClk])] ∧
      ∀ signal ∈ runSignals widths,
        values.filterMap (TraceLabel.entry name (signalLabel widths signal)) =
          (if reportedBits (reports step).1 (reports step).2 signal = [] then
            none
          else
            some (time, (traceFacility name (signalLabel widths signal)).normal
              ((reportedBits (reports step).1 (reports step).2
                signal).reverse.map bitChar))).toList := by
  intro values
  have distinct := @tracedIn_distinct options widths proto reports isProto passes step
  have isTraced := @tracedIn_eq options widths proto reports isProto passes step
  have member : ∀ sample ∈ proto.tracedIn reports step, ∀ label : TraceLabel,
      sample.lab = label.lab → values.filterMap (label.entry name) =
        (label.entry name (time, sample)).toList := fun sample isSample label same =>
    entries_of_mem distinct isSample same time
  rw [isTraced] at member
  constructor
  · rw [member _ List.mem_cons_self (.bit "ACLK") rfl, entry_bit]
    rfl
  · intro signal isSignal
    have isLab := signalLabel_lab widths signal
    have isPassed : passedSample (signalName signal)
        (reportedBits (reports step).1 (reports step).2 signal) ∈
          (runSignals widths).map fun signal => passedSample (signalName signal)
            (reportedBits (reports step).1 (reports step).2 signal) :=
      List.mem_map_of_mem isSignal
    rw [member _ (List.mem_cons_of_mem _ isPassed) (signalLabel widths signal)
      ((passedSample_lab _ _).trans isLab.symm), ← isLab,
      entry_passed name (signalLabel_kind widths signal)]

/-! ## The file -/

/-- The server runs one bus. -/
abbrev onlyBus (name : CString) (widths : Widths) : String → TracedBus :=
  fun _ => axi4 name widths

theorem initial_fits
    (canTrace : CanTrace widths)
    (name : CString)
    (port : String) :
    (onlyBus name widths port).Fits := by
  have part : Traced (widths.dataWidth / 8) :=
    Nat.lt_of_le_of_lt (Nat.div_le_self _ _) canTrace.data
  refine fits_of_traced ?_ ?_
  · change ∀ label ∈ axi4Labels widths, Traced label.wid.toNat
    rw [axi4Labels, List.forall_mem_append]
    constructor
    · simp only [List.forall_mem_cons, traced_bits _ canTrace.data,
        traced_bits _ canTrace.addr, traced_bits _ canTrace.wid,
        traced_bits _ canTrace.rid, traced_bits _ part, true_and,
        List.not_mem_nil, false_implies, implies_true, and_true]
      decide
    · intro label member
      split at member
      · rw [List.mem_singleton.mp member]
        exact traced_bits _ canTrace.irq
      · cases member
  · change ∀ sample ∈ axi4Initial widths, sample.value.Fits
    simp only [axi4Initial, List.forall_mem_cons, Sample.bit, Sample.vector,
      TraceValue.Fits, List.length_replicate, canTrace.data, canTrace.addr,
      canTrace.wid, canTrace.rid, canTrace.irq, part, true_and,
      List.not_mem_nil, false_implies, implies_true, and_true]
    decide

/-- There are few enough values for the numbers of the file. -/
theorem few_of_runs
    (isProto : proto = ⟨BusClock.advanced options 0, widths⟩)
    (passes : ∀ step,
      AXI4Protocol.Passes widths (reports step).1 (reports step).2)
    (name : CString)
    (port : String)
    {runs : Nat}
    (fewRuns : runs + 3 ≤ 2 ^ 26) :
    Dump.Few (onlyBus name widths) port
      (clockedEvents options port (proto.tracedIn reports) runs) := by
  have lengthLabels : (axi4Labels widths).length ≤ 38 := by
    rw [axi4Labels_eq, List.length_cons, List.length_map]
    exact Nat.succ_le_succ (length_runSignals_le widths)
  have lengthGiven : (given (onlyBus name widths) port (clockedEvents options port
      (proto.tracedIn reports) runs)).length ≤ 37 + 38 * runs :=
    length_given_clocked_le (length_tracedIn_le isProto passes) runs
  constructor
  · change (axi4Labels widths).length + _ + 18 ≤ 256 ^ 4
    omega
  · exact Nat.lt_of_le_of_lt lengthLabels (by decide)

/-- The clock, and every signal as its end has reported it last. -/
structure ShowsRuns
    (name : CString)
    (widths : Widths)
    (options : ClockOptions)
    (reports : Nat → SignalMap String × SignalMap String)
    (runs : Nat)
    (waveform : Waveform) : Prop where
  clock : ∀ time, waveform.value (name.text ++ ".ACLK".toList) time =
    some (Timeline.valueAt ['x']
      ((0, ['1']) :: (List.range runs).map fun step =>
        (BitVec.ofNat 64 (runTime options step),
          [bitChar (BusClock.advanced options (step + 1)).busClk])) time)
  signals : ∀ signal ∈ runSignals widths,
    ∀ time, waveform.value (name.text ++ '.' :: (signalName signal).toList) time =
      some (Timeline.valueAt (traceFacility name (signalLabel widths signal)).initial
        (((axi4Initial widths).map (Prod.mk 0)).filterMap
            ((signalLabel widths signal).entry name) ++
          (List.range runs).filterMap fun step =>
            let bits := reportedBits (reports step).1 (reports step).2 signal
            if bits = [] then
              none
            else
              some (BitVec.ofNat 64 (runTime options step),
                (traceFacility name (signalLabel widths signal)).normal
                  (bits.reverse.map bitChar))) time)

variable {runs : Nat}

/-- The history of the clock. -/
theorem history_clock
    (isProto : proto = ⟨BusClock.advanced options 0, widths⟩)
    (passes : ∀ step,
      AXI4Protocol.Passes widths (reports step).1 (reports step).2)
    (name : CString)
    (port : String)
    (short : runTime options runs < 2 ^ 32) :
    signalHistory (onlyBus name widths) port (.bit "ACLK")
        (clockedEvents options port (proto.tracedIn reports) runs) =
      (0, ['1']) :: (List.range runs).map fun step =>
        (BitVec.ofNat 64 (runTime options step),
          [bitChar (BusClock.advanced options (step + 1)).busClk]) := by
  have each : ∀ step time, ((proto.tracedIn reports step).map
      (Prod.mk time)).filterMap (TraceLabel.entry name (.bit "ACLK")) =
        ((some [bitChar (BusClock.advanced options (step + 1)).busClk]).map
          (Prod.mk time)).toList :=
    fun step time => (tracedIn_entries isProto passes name step time).1
  have distinct : ((axi4Initial widths).map (·.lab)).Nodup := by
    change ((axi4Initial ⟨0, 0, 0, 0, 0⟩).map (·.lab)).Nodup
    decide
  have first : ((axi4Initial widths).map (Prod.mk 0)).filterMap
      (TraceLabel.entry name (.bit "ACLK")) = [(0, ['1'])] := by
    rw [@entries_of_mem name (.bit "ACLK") _ distinct (.bit "ACLK" .one)
      List.mem_cons_self rfl 0, entry_bit]
    rfl
  refine (@signalHistory_clocked options (onlyBus name widths) port
    (proto.tracedIn reports) (.bit "ACLK") _ each runs short).trans ?_
  change ((axi4Initial widths).map (Prod.mk 0)).filterMap
    (TraceLabel.entry name (.bit "ACLK")) ++ _ = _
  rw [first]
  exact congrArg (List.cons _) (congrFun List.filterMap_eq_map' _)

/-- The history of a signal. -/
theorem history_signal
    (isProto : proto = ⟨BusClock.advanced options 0, widths⟩)
    (passes : ∀ step,
      AXI4Protocol.Passes widths (reports step).1 (reports step).2)
    (name : CString)
    (port : String)
    (short : runTime options runs < 2 ^ 32)
    {signal : MasterSignal ⊕ SlaveSignal}
    (isSignal : signal ∈ runSignals widths) :
    signalHistory (onlyBus name widths) port (signalLabel widths signal)
        (clockedEvents options port (proto.tracedIn reports) runs) =
      ((axi4Initial widths).map (Prod.mk 0)).filterMap
          ((signalLabel widths signal).entry name) ++
        (List.range runs).filterMap fun step =>
          let bits := reportedBits (reports step).1 (reports step).2 signal
          if bits = [] then
            none
          else
            some (BitVec.ofNat 64 (runTime options step),
              (traceFacility name (signalLabel widths signal)).normal
                (bits.reverse.map bitChar)) := by
  exact @signalHistory_reported options (onlyBus name widths) port
    (proto.tracedIn reports) (signalLabel widths signal)
    (fun step => reportedBits (reports step).1 (reports step).2 signal)
    (traceFacility name (signalLabel widths signal)).normal
    (fun step time => (tracedIn_entries isProto passes name step time).2 signal
      isSignal) runs short

/-- The trace file of an AXI4 bus shows its runs. -/
theorem axi4_playback
    (isProto : proto = ⟨BusClock.advanced options 0, widths⟩)
    (passes : ∀ step,
      AXI4Protocol.Passes widths (reports step).1 (reports step).2)
    (name : CString)
    (port : String)
    (short : runTime options runs < 2 ^ 32)
    (fewRuns : runs + 3 ≤ 2 ^ 26) :
    ∃ dump closed waveform,
      Dump.run (onlyBus name widths)
          (clockedEvents options port (proto.tracedIn reports) runs) = some dump ∧
        dump.finish = some closed ∧ readFile closed = some waveform ∧
        ShowsRuns name widths options reports runs waveform := by
  obtain ⟨dump, closed, waveform, ran, isClosed, isFile, values⟩ :=
    @clocked_playback options (onlyBus name widths) port (proto.tracedIn reports)
      (.axi4 widths) (initial_fits (passes 0).canTrace name port) runs
      (fun step _ => tracedIn_fits isProto passes step)
      (fun step _ => steady_of_nodup (tracedIn_distinct isProto passes step)) short
      (few_of_runs isProto passes name port fewRuns)
  have isLabels : ((onlyBus name widths) port).labels =
      .bit "ACLK" :: (runSignals widths).map (signalLabel widths) :=
    axi4Labels_eq widths
  rw [isLabels] at values
  refine ⟨dump, closed, waveform, ran, isClosed, isFile, ?_, ?_⟩
  · intro time
    have isValue := values (.bit "ACLK") List.mem_cons_self time
    rw [history_clock isProto passes name port short] at isValue
    exact isValue
  · intro signal isSignal time
    have isValue := values (signalLabel widths signal)
      (List.mem_cons_of_mem _ (List.mem_map_of_mem isSignal)) time
    rw [history_signal isProto passes name port short isSignal,
      signalLabel_lab] at isValue
    exact isValue

/--
The trace file of a server with one AXI4 bus shows the runs of the bus, with the
widths that its configuration has agreed on.
-/
theorem axi4_server_playback
    {made : AXI4Protocol}
    (isMade : AXI4Protocol.make options = some made)
    (agreed : Widths)
    (passes : ∀ step, AXI4Protocol.Passes (made.configure agreed).widths
      (reports step).1 (reports step).2)
    (name : CString)
    {config : Config}
    {port : String}
    (isOnly : config.ports = [port])
    {clockPhaseMaps : String → Fin 4 → BitVec 64}
    (isClock : clockPhaseMaps port = (BusClock.ofOptions options).clockPhaseMap)
    {inputs : Nat → Selection}
    {turn : Nat}
    {dumped : DumpedServer}
    (reached : dumpedRun config clockPhaseMaps
      (fun _ => (made.configure agreed).tracedIn reports) inputs turn = some dumped)
    (isAssembled :
      (dumped.traced.server.busMap port).needInitialization = false)
    (short : runTime options (dumped.ran port) < 2 ^ 32)
    (fewRuns : dumped.ran port + 3 ≤ 2 ^ 26) :
    ∃ dump closed waveform,
      Dump.run (onlyBus name (made.configure agreed).widths) dumped.events =
          some dump ∧
        dump.finish = some closed ∧ readFile closed = some waveform ∧
        ShowsRuns name (made.configure agreed).widths options reports
          (dumped.ran port) waveform := by
  have isProto : made.configure agreed =
      ⟨BusClock.advanced options 0, (made.configure agreed).widths⟩ := by
    rw [AXI4Protocol.make, Option.map_eq_some_iff] at isMade
    obtain ⟨clock, isClock, rfl⟩ := isMade
    rw [eq_advanced_of_make isClock]
    rfl
  have oneClock := dumpedRun_events isOnly isClock reached
  rw [oneClock.running isAssembled]
  exact axi4_playback isProto passes name port short fewRuns

end

/-- A master and a slave on one bus. -/
def masterAndSlave : Config where
  ports := ["tcp:1"]
  portsDistinct := onePort_distinct
  devices := fun _ => ["master", "slave"]

/-- Both connect and report once. -/
def bothReady : Nat → Selection
  | 0 => Service.turn (some 3) 3 []
  | 1 => Service.turn (some 4) 3 [.hello "master"]
  | 2 => Service.turn none 4 [.hello "slave"]
  | 3 => Service.turn none 3 [.ready]
  | _ => Service.turn none 4 [.ready]

/-- Both ends drive ones in the widths of the bus. -/
def allOnes (widths : Widths) : SignalMap String × SignalMap String :=
  (fun lab =>
      (((runSignals widths).filterMap Sum.getLeft?).find? (·.name == lab)).elim []
        fun signal => .replicate (masterBits widths signal) .one,
    fun lab =>
      (((runSignals widths).filterMap Sum.getRight?).find? (·.name == lab)).elim []
        fun signal => .replicate (slaveBits widths signal) .one)

/-- The four bits of ARID are two in the file when RID has two. -/
theorem axi4_server_playback_arid :
    ∃ name options made agreed dumped dump closed waveform, ∃ reports : Nat → _,
      name.text = ['b'] ∧
        AXI4Protocol.make options = some made ∧
        (∀ step, (reports step).1 "ARID" = [.one, .one, .one, .one]) ∧
        dumpedRun masterAndSlave
          (fun _ => (BusClock.ofOptions options).clockPhaseMap)
          (fun _ => (made.configure agreed).tracedIn reports) bothReady 5 =
            some dumped ∧
        Dump.run (onlyBus name (made.configure agreed).widths) dumped.events =
          some dump ∧
        dump.finish = some closed ∧ readFile closed = some waveform ∧
        waveform.value (name.text ++ '.' :: "ARID".toList) 7 = some ['1', '1'] := by
  let name : CString := ⟨['b'], by decide⟩
  let options : ClockOptions := ⟨5000, 5000, 1000, 1000⟩
  let agreed : Widths := ⟨8, 16, 4, 2, 0⟩
  let made : AXI4Protocol := ⟨BusClock.ofOptions options, ⟨0, 0, 0, 0, 0⟩⟩
  let reports : Nat → SignalMap String × SignalMap String := fun _ => allOnes agreed
  have accepted : options.Accepted := by
    decide
  have isMade : AXI4Protocol.make options = some made := by
    rw [AXI4Protocol.make, BusClock.make, if_pos accepted]
    rfl
  have turns : (dumpedRun masterAndSlave
      (fun _ => (BusClock.ofOptions options).clockPhaseMap)
      (fun _ => (made.configure agreed).tracedIn reports) bothReady 5).any
        (fun dumped =>
          !(dumped.traced.server.busMap "tcp:1").needInitialization &&
            dumped.ran "tcp:1" == 1) = true := by
    decide +kernel
  obtain ⟨dumped, reached, facts⟩ := (Option.any_eq_true _ _).mp turns
  rw [Bool.and_eq_true, Bool.not_eq_true', beq_iff_eq] at facts
  obtain ⟨isAssembled, isOnce⟩ := facts
  have passes : ∀ step, AXI4Protocol.Passes (made.configure agreed).widths
      (reports step).1 (reports step).2 := by
    intro step
    refine ⟨by decide, fun signal => ?_, fun signal isDriven => ?_⟩
    · cases signal <;> decide +kernel
    · cases signal with
      | irq => decide +kernel
      | _ => decide +kernel
  obtain ⟨dump, closed, waveform, ran, isClosed, isFile, shows⟩ :=
    axi4_server_playback isMade agreed passes name rfl rfl reached isAssembled
      (by rw [isOnce]; decide) (by rw [isOnce]; decide)
  have isSignal : Sum.inl MasterSignal.arid ∈
      runSignals (made.configure agreed).widths := by
    simp [runSignals]
  have isValue := shows.signals _ isSignal 7
  rw [isOnce] at isValue
  exact ⟨name, options, made, agreed, dumped, dump, closed, waveform, reports, rfl,
    isMade, fun _ => by decide +kernel, reached, ran, isClosed, isFile,
    isValue.trans (congrArg some (by decide +kernel))⟩

end Simbus.Axi4
