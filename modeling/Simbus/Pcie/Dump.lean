import Simbus.Service.DumpServer
import Mathlib

/-!
# The trace file of a PCIe bus

A PCIe bus passes every signal on as it is, and its trace file shows what the ends
have reported last.  One signal is recorded under another name than that of its
label, so the file never has a value of it.
-/

set_option autoImplicit false

namespace Simbus.Pcie

open FourValued (Logic4)
open Lxt2 (CString Waveform readFile)
open Service

/-! ## What a run traces -/

/-- What drives a signal that the server passes on. -/
def driven
    (master slave : SignalMap String)
    (lab : String) : Vector4 :=
  if lab ∈ masterSignals then master lab else slave lab

/-- The signals that are traced under their own names, in the order of `run_run`. -/
def tracedSignals : List String :=
  ["user_reset", "user_lnk_up", "tx_buf_av", "m_axis_rx_tdata",
    "m_axis_rx_tkeep", "m_axis_rx_tlast", "m_axis_rx_tready",
    "m_axis_rx_tvalid", "s_axis_tx_tdata", "s_axis_tx_tkeep",
    "s_axis_tx_tlast", "s_axis_tx_tready", "s_axis_tx_tvalid"]

namespace PCIeTLP

/-- The calls of `set_trace_` in `run_run`; the last label has no trace. -/
def samples
    (proto : PCIeTLP)
    (master slave : SignalMap String) : List Sample :=
  .bit "user_clk" proto.clock.busClk ::
    tracedSignals.map (fun lab => .vector lab (driven master slave lab)) ++
      [.vector "s_axis_tx_user" (slave "s_axis_tx_tuser")]

/-- The protocol after some runs, with what both ends report for each. -/
def afterRuns
    (proto : PCIeTLP)
    (reports : Nat → SignalMap String × SignalMap String) :
    Nat → Option PCIeTLP
  | 0 => some proto
  | step + 1 =>
      (afterRuns proto reports step).bind fun proto =>
        (proto.runRun (reports step).1 (reports step).2).map Prod.fst

/-- What is traced in a run; nothing if the protocol has failed. -/
def tracedIn
    (proto : PCIeTLP)
    (reports : Nat → SignalMap String × SignalMap String)
    (step : Nat) : List Sample :=
  match afterRuns proto reports (step + 1) with
  | some next => next.samples (reports step).1 (reports step).2
  | none => []

end PCIeTLP

section

variable {options : ClockOptions}
variable {proto : PCIeTLP}
variable {reports : Nat → SignalMap String × SignalMap String}

theorem afterRuns_eq
    (isMade : PCIeTLP.make options = some proto)
    (canTrace : ∀ step, PCIeTLP.CanTrace (reports step).1 (reports step).2)
    (step : Nat) :
    proto.afterRuns reports step = some ⟨BusClock.advanced options step⟩ := by
  induction step with
  | zero =>
      rw [PCIeTLP.make, Option.map_eq_some_iff] at isMade
      obtain ⟨clock, isClock, rfl⟩ := isMade
      rw [PCIeTLP.afterRuns, eq_advanced_of_make isClock]
  | succ step inductionHypothesis =>
      rw [PCIeTLP.afterRuns, inductionHypothesis, Option.bind_some, PCIeTLP.runRun]
      simp only [if_pos (canTrace step)]
      rfl

theorem tracedIn_eq
    (isMade : PCIeTLP.make options = some proto)
    (canTrace : ∀ step, PCIeTLP.CanTrace (reports step).1 (reports step).2)
    (step : Nat) :
    proto.tracedIn reports step =
      .bit "user_clk" (BusClock.advanced options (step + 1)).busClk ::
        tracedSignals.map (fun lab =>
          .vector lab (driven (reports step).1 (reports step).2 lab)) ++
          [.vector "s_axis_tx_user" ((reports step).2 "s_axis_tx_tuser")] := by
  rw [PCIeTLP.tracedIn, afterRuns_eq isMade canTrace]
  rfl

/-- No label comes twice in a run. -/
theorem tracedIn_distinct
    (isMade : PCIeTLP.make options = some proto)
    (canTrace : ∀ step, PCIeTLP.CanTrace (reports step).1 (reports step).2)
    (step : Nat) :
    ((proto.tracedIn reports step).map (·.lab)).Nodup := by
  rw [tracedIn_eq isMade canTrace]
  change (["user_clk"] ++ tracedSignals ++ ["s_axis_tx_user"]).Nodup
  decide

theorem tracedIn_fits
    (isMade : PCIeTLP.make options = some proto)
    (canTrace : ∀ step, PCIeTLP.CanTrace (reports step).1 (reports step).2)
    (step : Nat) :
    ∀ sample ∈ proto.tracedIn reports step, sample.value.Fits := by
  rw [tracedIn_eq isMade canTrace]
  obtain ⟨masterFits, slaveFits⟩ := canTrace step
  have known : ∀ lab ∈ tracedSignals, lab ∈ masterSignals ∨ lab ∈ slaveSignals := by
    decide
  intro sample member
  rcases List.mem_append.mp member with member | isLast
  · rcases List.mem_cons.mp member with rfl | isPassed
    · trivial
    · obtain ⟨lab, isTraced, rfl⟩ := List.mem_map.mp isPassed
      change Traced (driven _ _ lab).length
      rw [driven]
      split
      · rename_i isMaster
        exact masterFits lab isMaster
      · rename_i notMaster
        exact slaveFits lab ((known lab isTraced).resolve_left notMaster)
  · rw [List.mem_singleton.mp isLast]
    exact slaveFits "s_axis_tx_tuser" (by decide)

theorem length_tracedIn
    (isMade : PCIeTLP.make options = some proto)
    (canTrace : ∀ step, PCIeTLP.CanTrace (reports step).1 (reports step).2)
    (step : Nat) :
    (proto.tracedIn reports step).length = 15 := by
  rw [tracedIn_eq isMade canTrace]
  rfl

/-- What a run has for a label with bits: the last report of the signal, if any. -/
theorem tracedIn_entries
    (isMade : PCIeTLP.make options = some proto)
    (canTrace : ∀ step, PCIeTLP.CanTrace (reports step).1 (reports step).2)
    (name : CString)
    (step : Nat)
    (time : BitVec 64) :
    let values := (proto.tracedIn reports step).map (Prod.mk time)
    values.filterMap (TraceLabel.entry name (.bit "user_clk")) =
        [(time, [bitChar (BusClock.advanced options (step + 1)).busClk])] ∧
      (∀ lab ∈ tracedSignals, ∀ wid, 0 < wid → Traced wid →
        values.filterMap (TraceLabel.entry name (.bits lab wid)) =
          (if driven (reports step).1 (reports step).2 lab = [] then
            none
          else
            some (time, Lxt2.normalize wid ((driven (reports step).1
              (reports step).2 lab).reverse.map bitChar))).toList) ∧
      values.filterMap (TraceLabel.entry name (.bits "s_axis_tx_tuser" 4)) =
        [] := by
  intro values
  have distinct := @tracedIn_distinct options proto reports isMade canTrace step
  have isTraced := @tracedIn_eq options proto reports isMade canTrace step
  have member : ∀ sample ∈ proto.tracedIn reports step, ∀ label : TraceLabel,
      sample.lab = label.lab → values.filterMap (label.entry name) =
        (label.entry name (time, sample)).toList := fun sample isSample label same =>
    entries_of_mem distinct isSample same time
  refine ⟨?_, ?_, ?_⟩
  · rw [isTraced] at member
    rw [member _ (List.mem_append_left _ List.mem_cons_self) (.bit "user_clk") rfl,
      entry_bit]
    rfl
  · intro lab isLab wid positive traced
    rw [isTraced] at member
    rw [member (.vector lab (driven (reports step).1 (reports step).2 lab))
      (List.mem_append_left _ (List.mem_cons_of_mem _ (List.mem_map_of_mem isLab)))
      (.bits lab wid) rfl, entry_vector positive traced]
  · apply entries_of_ne
    rw [isTraced]
    intro sample isSample
    rcases List.mem_append.mp isSample with isOther | isLast
    · rcases List.mem_cons.mp isOther with rfl | isPassed
      · exact (by decide : ("user_clk" : String) ≠ "s_axis_tx_tuser")
      · obtain ⟨lab, isLab, rfl⟩ := List.mem_map.mp isPassed
        have others : ∀ lab ∈ tracedSignals, lab ≠ "s_axis_tx_tuser" := by
          decide
        exact others lab isLab
    · rw [List.mem_singleton.mp isLast]
      exact (by decide : ("s_axis_tx_user" : String) ≠ "s_axis_tx_tuser")

/-! ## The file -/

/-- The server runs one bus. -/
abbrev onlyBus (name : CString) : String → TracedBus :=
  fun _ => pcieTLP name

/-- There are few enough values for the numbers of the file. -/
theorem few_of_runs
    (isMade : PCIeTLP.make options = some proto)
    (canTrace : ∀ step, PCIeTLP.CanTrace (reports step).1 (reports step).2)
    (name : CString)
    (port : String)
    {runs : Nat}
    (fewRuns : runs + 3 ≤ 2 ^ 28) :
    Dump.Few (onlyBus name) port
      (clockedEvents options port (proto.tracedIn reports) runs) := by
  have atMost : (given (onlyBus name) port (clockedEvents options port
      (proto.tracedIn reports) runs)).length ≤ 4 + 15 * runs :=
    length_given_clocked_le
      (fun step => Nat.le_of_eq (length_tracedIn isMade canTrace step)) runs
  constructor
  · change 15 + _ + 18 ≤ 256 ^ 4
    omega
  · change 15 < 256 ^ 3
    decide

/--
The clock, every signal but one as its end has reported it last, and that one as
unknown at all times.
-/
structure ShowsRuns
    (name : CString)
    (options : ClockOptions)
    (reports : Nat → SignalMap String × SignalMap String)
    (runs : Nat)
    (waveform : Waveform) : Prop where
  clock : ∀ time, waveform.value (name.text ++ ".user_clk".toList) time =
    some (Timeline.valueAt ['x']
      ((List.range runs).map fun step =>
        (BitVec.ofNat 64 (runTime options step),
          [bitChar (BusClock.advanced options (step + 1)).busClk])) time)
  signals : ∀ label ∈ pcieTLPLabels, label.lab ∈ tracedSignals →
    ∀ time, waveform.value (name.text ++ '.' :: label.lab.toList) time =
      some (Timeline.valueAt (List.replicate label.wid.toNat 'x')
        (((pcieTLP name).initial.map (Prod.mk 0)).filterMap (label.entry name) ++
          (List.range runs).filterMap fun step =>
            let bits := driven (reports step).1 (reports step).2 label.lab
            if bits = [] then
              none
            else
              some (BitVec.ofNat 64 (runTime options step),
                Lxt2.normalize label.wid.toNat (bits.reverse.map bitChar))) time)
  tuser : ∀ time, waveform.value (name.text ++ ".s_axis_tx_tuser".toList) time =
    some ['x', 'x', 'x', 'x']

/-- All labels have bits that can be traced. -/
theorem pcieTLPLabels_bits :
    ∀ label ∈ pcieTLPLabels,
      label = .bits label.lab label.wid.toNat ∧ 0 < label.wid.toNat ∧
        Traced label.wid.toNat := by
  decide

theorem initial_of_label
    (name : CString)
    {label : TraceLabel}
    (member : label ∈ pcieTLPLabels) :
    (traceFacility name label).initial = List.replicate label.wid.toNat 'x' := by
  obtain ⟨isBits, positive, traced⟩ := pcieTLPLabels_bits label member
  have isLength := len_bits name label.lab positive traced
  rw [← isBits] at isLength
  rw [Lxt2.Facility.initial, isLength]

variable {runs : Nat}

/-- The history of the clock. -/
theorem history_clock
    (isMade : PCIeTLP.make options = some proto)
    (canTrace : ∀ step, PCIeTLP.CanTrace (reports step).1 (reports step).2)
    (name : CString)
    (port : String)
    (short : runTime options runs < 2 ^ 32) :
    signalHistory (onlyBus name) port (.bit "user_clk")
        (clockedEvents options port (proto.tracedIn reports) runs) =
      (List.range runs).map fun step =>
        (BitVec.ofNat 64 (runTime options step),
          [bitChar (BusClock.advanced options (step + 1)).busClk]) := by
  have each : ∀ step time, ((proto.tracedIn reports step).map
      (Prod.mk time)).filterMap (TraceLabel.entry name (.bit "user_clk")) =
        ((some [bitChar (BusClock.advanced options (step + 1)).busClk]).map
          (Prod.mk time)).toList :=
    fun step time => (tracedIn_entries isMade canTrace name step time).1
  refine (@signalHistory_clocked options (onlyBus name) port (proto.tracedIn reports)
    (.bit "user_clk") _ each runs short).trans ?_
  exact congrFun List.filterMap_eq_map' _

/-- The history of a signal that is recorded under its own name. -/
theorem history_signal
    (isMade : PCIeTLP.make options = some proto)
    (canTrace : ∀ step, PCIeTLP.CanTrace (reports step).1 (reports step).2)
    (name : CString)
    (port : String)
    (short : runTime options runs < 2 ^ 32)
    {label : TraceLabel}
    (member : label ∈ pcieTLPLabels)
    (isTraced : label.lab ∈ tracedSignals) :
    signalHistory (onlyBus name) port label
        (clockedEvents options port (proto.tracedIn reports) runs) =
      ((pcieTLP name).initial.map (Prod.mk 0)).filterMap (label.entry name) ++
        (List.range runs).filterMap fun step =>
          let bits := driven (reports step).1 (reports step).2 label.lab
          if bits = [] then
            none
          else
            some (BitVec.ofNat 64 (runTime options step),
              Lxt2.normalize label.wid.toNat (bits.reverse.map bitChar)) := by
  obtain ⟨isBits, positive, traced⟩ := pcieTLPLabels_bits label member
  refine @signalHistory_reported options (onlyBus name) port (proto.tracedIn reports)
    label (fun step => driven (reports step).1 (reports step).2 label.lab)
    (Lxt2.normalize label.wid.toNat) ?_ runs short
  intro step time
  have isEntry := (tracedIn_entries isMade canTrace name step time).2.1 label.lab
    isTraced label.wid.toNat positive traced
  rw [← isBits] at isEntry
  exact isEntry

/-- No run has a value for the label of TUSER. -/
theorem history_tuser
    (isMade : PCIeTLP.make options = some proto)
    (canTrace : ∀ step, PCIeTLP.CanTrace (reports step).1 (reports step).2)
    (name : CString)
    (port : String)
    (short : runTime options runs < 2 ^ 32) :
    signalHistory (onlyBus name) port (.bits "s_axis_tx_tuser" 4)
        (clockedEvents options port (proto.tracedIn reports) runs) = [] := by
  have each : ∀ step time, ((proto.tracedIn reports step).map
      (Prod.mk time)).filterMap
        (TraceLabel.entry name (.bits "s_axis_tx_tuser" 4)) =
          ((none : Option Lxt2.Text).map (Prod.mk time)).toList :=
    fun step time => (tracedIn_entries isMade canTrace name step time).2.2
  have differ : ∀ sample ∈ (pcieTLP name).initial,
      sample.lab ≠ "s_axis_tx_tuser" := by
    change ∀ sample ∈ [Sample.bit "user_clk_out" .one, .bit "user_reset" .one,
      .bit "user_lnk_up" .one, .bit "m_axis_rx_tready" .x], _
    decide
  refine (@signalHistory_clocked options (onlyBus name) port (proto.tracedIn reports)
    (.bits "s_axis_tx_tuser" 4) (fun _ => none) each runs short).trans ?_
  have noInitial : ((pcieTLP name).initial.map (Prod.mk 0)).filterMap
      (TraceLabel.entry name (.bits "s_axis_tx_tuser" 4)) = [] :=
    entries_of_ne differ 0
  have noRuns : (List.range runs).filterMap (fun step =>
      (none : Option Lxt2.Text).map
        (Prod.mk (BitVec.ofNat 64 (runTime options step)))) = [] := by
    rw [List.filterMap_eq_nil_iff]
    exact fun _ _ => rfl
  exact List.append_eq_nil_iff.mpr ⟨noInitial, noRuns⟩

/-- The trace file of a PCIe bus shows its runs. -/
theorem pcie_playback
    (isMade : PCIeTLP.make options = some proto)
    (canTrace : ∀ step, PCIeTLP.CanTrace (reports step).1 (reports step).2)
    (name : CString)
    (port : String)
    (short : runTime options runs < 2 ^ 32)
    (fewRuns : runs + 3 ≤ 2 ^ 28) :
    ∃ dump closed waveform,
      Dump.run (onlyBus name)
          (clockedEvents options port (proto.tracedIn reports) runs) = some dump ∧
        dump.finish = some closed ∧ readFile closed = some waveform ∧
        ShowsRuns name options reports runs waveform := by
  have initialFits : (onlyBus name port).Fits := by
    refine fits_of_traced ?_ ?_
    · change ∀ label ∈ pcieTLPLabels, Traced label.wid.toNat
      decide
    · change ∀ sample ∈ [Sample.bit "user_clk_out" .one, .bit "user_reset" .one,
        .bit "user_lnk_up" .one, .bit "m_axis_rx_tready" .x], sample.value.Fits
      decide
  obtain ⟨dump, closed, waveform, ran, isClosed, isFile, values⟩ :=
    @clocked_playback options (onlyBus name) port (proto.tracedIn reports)
      .pcieTLP initialFits runs
      (fun step _ => tracedIn_fits isMade canTrace step)
      (fun step _ => steady_of_nodup (tracedIn_distinct isMade canTrace step)) short
      (few_of_runs isMade canTrace name port fewRuns)
  refine ⟨dump, closed, waveform, ran, isClosed, isFile, ?_, ?_, ?_⟩
  · intro time
    have isValue := values (.bit "user_clk") List.mem_cons_self time
    rw [history_clock isMade canTrace name port short] at isValue
    exact isValue
  · intro label member isTraced time
    have isValue := values label member time
    rw [history_signal isMade canTrace name port short member isTraced,
      initial_of_label _ member] at isValue
    exact isValue
  · intro time
    have isLabel : TraceLabel.bits "s_axis_tx_tuser" 4 ∈ pcieTLPLabels := by
      decide
    have isValue := values (.bits "s_axis_tx_tuser" 4) isLabel time
    rw [history_tuser isMade canTrace name port short,
      initial_of_label _ isLabel] at isValue
    exact isValue

/--
The trace file of a server with one PCIe bus shows the runs of the bus, and never a
value of TUSER.
-/
theorem pcie_server_playback
    (isMade : PCIeTLP.make options = some proto)
    (canTrace : ∀ step, PCIeTLP.CanTrace (reports step).1 (reports step).2)
    (name : CString)
    {config : Config}
    {port : String}
    (isOnly : config.ports = [port])
    {clockPhaseMaps : String → Fin 4 → BitVec 64}
    (isClock : clockPhaseMaps port = (BusClock.ofOptions options).clockPhaseMap)
    {inputs : Nat → Selection}
    {turn : Nat}
    {dumped : DumpedServer}
    (reached : dumpedRun config clockPhaseMaps (fun _ => proto.tracedIn reports)
      inputs turn = some dumped)
    (isAssembled :
      (dumped.traced.server.busMap port).needInitialization = false)
    (short : runTime options (dumped.ran port) < 2 ^ 32)
    (fewRuns : dumped.ran port + 3 ≤ 2 ^ 28) :
    ∃ dump closed waveform,
      Dump.run (onlyBus name) dumped.events = some dump ∧
        dump.finish = some closed ∧ readFile closed = some waveform ∧
        ShowsRuns name options reports (dumped.ran port) waveform := by
  have oneClock := dumpedRun_events isOnly isClock reached
  rw [oneClock.running isAssembled]
  exact pcie_playback isMade canTrace name port short fewRuns

end

/-- A root complex and an endpoint on one bus. -/
def rootAndEndpoint : Config where
  ports := ["tcp:1"]
  portsDistinct := onePort_distinct
  devices := fun _ => ["endpoint", "root"]

/-- Both connect and report once. -/
def bothReport : Nat → Selection
  | 0 => Service.turn (some 3) 3 []
  | 1 => Service.turn (some 4) 3 [.hello "root"]
  | 2 => Service.turn none 4 [.hello "endpoint"]
  | 3 => Service.turn none 3 [.ready]
  | _ => Service.turn none 4 [.ready]

/-- An endpoint that reports ones finds TVALID in the file, but not TUSER. -/
theorem pcie_server_playback_tuser :
    ∃ name options proto dumped dump closed waveform, ∃ reports : Nat → _,
      name.text = ['p'] ∧
        PCIeTLP.make options = some proto ∧
        (∀ step, (reports step).2 "s_axis_tx_tuser" = [.one] ∧
          (reports step).2 "s_axis_tx_tvalid" = [.one]) ∧
        dumpedRun rootAndEndpoint
          (fun _ => (BusClock.ofOptions options).clockPhaseMap)
          (fun _ => proto.tracedIn reports) bothReport 5 = some dumped ∧
        Dump.run (onlyBus name) dumped.events = some dump ∧
        dump.finish = some closed ∧ readFile closed = some waveform ∧
        waveform.value (name.text ++ '.' :: "s_axis_tx_tvalid".toList) 7 =
          some ['1'] ∧
        waveform.value (name.text ++ ".s_axis_tx_tuser".toList) 7 =
          some ['x', 'x', 'x', 'x'] := by
  let name : CString := ⟨['p'], by decide⟩
  let options : ClockOptions := ⟨5000, 5000, 1000, 1000⟩
  let proto : PCIeTLP := ⟨BusClock.ofOptions options⟩
  let reports : Nat → SignalMap String × SignalMap String := fun _ =>
    (fun _ => [], fun _ => [.one])
  have accepted : options.Accepted := by
    decide
  have isMade : PCIeTLP.make options = some proto := by
    rw [PCIeTLP.make, BusClock.make, if_pos accepted]
    rfl
  have turns : (dumpedRun rootAndEndpoint
      (fun _ => (BusClock.ofOptions options).clockPhaseMap)
      (fun _ => proto.tracedIn reports) bothReport 5).any (fun dumped =>
        !(dumped.traced.server.busMap "tcp:1").needInitialization &&
          dumped.ran "tcp:1" == 1) = true := by
    decide +kernel
  obtain ⟨dumped, reached, facts⟩ := (Option.any_eq_true _ _).mp turns
  rw [Bool.and_eq_true, Bool.not_eq_true', beq_iff_eq] at facts
  obtain ⟨isAssembled, isOnce⟩ := facts
  have canTrace : ∀ step, PCIeTLP.CanTrace (reports step).1 (reports step).2 := by
    intro step
    exact ⟨fun _ _ => (by decide : Traced 0), fun _ _ => (by decide : Traced 1)⟩
  obtain ⟨dump, closed, waveform, ran, isClosed, isFile, shows⟩ :=
    pcie_server_playback isMade canTrace name rfl rfl reached isAssembled
      (by rw [isOnce]; decide) (by rw [isOnce]; decide)
  have isLabel : TraceLabel.bit "s_axis_tx_tvalid" ∈ pcieTLPLabels := by
    decide
  have isTraced : (TraceLabel.bit "s_axis_tx_tvalid").lab ∈ tracedSignals := by
    decide
  have isValue := shows.signals _ isLabel isTraced 7
  rw [isOnce] at isValue
  exact ⟨name, options, proto, dumped, dump, closed, waveform, reports, rfl, isMade,
    fun _ => ⟨rfl, rfl⟩, reached, ran, isClosed, isFile,
    isValue.trans (congrArg some (by decide +kernel)), shows.tuser 7⟩

end Simbus.Pcie
