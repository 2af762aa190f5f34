import Simbus.Axi4.Protocol
import Simbus.P2p.Protocol
import Simbus.Pci.Protocol
import Simbus.Pcie.Server
import Simbus.Service.DumpHistory
import Mathlib

/-!
# What the protocols trace when they start

`trace_init` of the four protocols, and the values that come with it and with
`run_init`.  Every protocol records a value at once, so the first bus takes the
file, whatever its protocol is.
-/

set_option autoImplicit false

namespace Simbus.Service

open FourValued (Logic4)
open Lxt2 (CString IsCString Kind readFile)

/-- A label for one bit. -/
def TraceLabel.bit (lab : String) : TraceLabel where
  lab := lab
  kind := .bits
  wid := 1

/-- A label for some bits. -/
def TraceLabel.bits (lab : String) (wid : Nat) : TraceLabel where
  lab := lab
  kind := .bits
  wid := BitVec.ofNat 32 wid

/-- A label for a text. -/
def TraceLabel.text (lab : String) : TraceLabel where
  lab := lab
  kind := .string
  wid := 1

/-- One bit for a label. -/
def Sample.bit (lab : String) (bit : Logic4) : Sample where
  lab := lab
  value := .bit bit

/-- A vector for a label. -/
def Sample.vector (lab : String) (bits : Vector4) : Sample where
  lab := lab
  value := .vector bits

/-! ## Point to point -/

/-- `clock_mode_string_`. -/
def clockModeString : P2p.ClockMode → CString
  | .run => ⟨['R', 'u', 'n'], by decide⟩
  | .stop0 => ⟨['S', 't', 'o', 'p', '-', '0'], by decide⟩
  | .stop1 => ⟨['S', 't', 'o', 'p', '-', '1'], by decide⟩
  | .stopZ => ⟨['H', 'i', 'Z'], by decide⟩

/-- `trace_init` of `PointToPoint`. -/
def pointToPointLabels (widI widO : Nat) : List TraceLabel :=
  [.bit "CLOCK", .text "CLOCK_MODE"] ++
    (if 0 < widI then [.bits "DATA_I" widI] else []) ++
    (if 0 < widO then [.bits "DATA_O" widO] else [])

/-- `PointToPoint`. -/
def pointToPoint (name : CString) (proto : P2p.PointToPoint) : TracedBus where
  name := name
  labels := pointToPointLabels proto.widI proto.widO
  initial :=
    [.bit "CLOCK" .one,
      ⟨"CLOCK_MODE", .string (clockModeString proto.masterClockMode)⟩]

/-! ## AXI4 -/

/-- `trace_init` of `AXI4Protocol`. -/
def axi4Labels (widths : Axi4.Widths) : List TraceLabel :=
  [.bit "ACLK", .bit "ARESETn",
    .bit "AWVALID", .bit "AWREADY", .bits "AWADDR" widths.addrWidth,
    .bits "AWLEN" 8, .bits "AWSIZE" 3, .bits "AWBURST" 2, .bits "AWLOCK" 2,
    .bits "AWCACHE" 4, .bits "AWPROT" 3, .bits "AWQOS" 4,
    .bits "AWID" widths.widWidth,
    .bit "WVALID", .bit "WREADY", .bits "WDATA" widths.dataWidth,
    .bits "WSTRB" (widths.dataWidth / 8),
    .bit "BVALID", .bit "BREADY", .bits "BRESP" 2,
    .bits "BID" widths.widWidth,
    .bit "ARVALID", .bit "ARREADY", .bits "ARADDR" widths.addrWidth,
    .bits "ARLEN" 8, .bits "ARSIZE" 3, .bits "ARBURST" 2, .bits "ARLOCK" 2,
    .bits "ARCACHE" 4, .bits "ARPROT" 3, .bits "ARQOS" 4,
    .bits "ARID" widths.ridWidth,
    .bit "RVALID", .bit "RREADY", .bits "RDATA" widths.dataWidth,
    .bits "RRESP" 2, .bits "RID" widths.ridWidth] ++
    (if 0 < widths.irqWidth then [.bits "IRQ" widths.irqWidth] else [])

/-- `run_init` of `AXI4Protocol`; some of its vectors are filled twice. -/
def axi4Initial (widths : Axi4.Widths) : List Sample :=
  [.bit "ACLK" .one, .bit "ARESETn" .one,
    .bit "AWVALID" .z, .bit "AWREADY" .z,
    .vector "AWADDR" (.replicate widths.addrWidth .z),
    .vector "AWLEN" (.replicate 8 .z), .vector "AWSIZE" (.replicate 3 .zero),
    .vector "AWBURST" (.replicate 2 .zero),
    .vector "AWLOCK" (.replicate 2 .zero),
    .vector "AWCACHE" (.replicate 4 .zero),
    .vector "AWPROT" (.replicate 3 .zero), .vector "AWQOS" (.replicate 4 .z),
    .vector "AWID" (.replicate widths.widWidth .zero),
    .bit "WVALID" .z, .bit "WREADY" .z,
    .vector "WDATA" (.replicate widths.dataWidth .z),
    .vector "WSTRB" (.replicate (widths.dataWidth / 8) .z),
    .bit "BVALID" .z, .bit "BREADY" .z, .vector "BRESP" (.replicate 2 .zero),
    .bit "ARVALID" .z, .bit "ARREADY" .z,
    .vector "ARADDR" (.replicate widths.addrWidth .z),
    .vector "ARLEN" (.replicate 8 .z), .vector "ARSIZE" (.replicate 3 .zero),
    .vector "ARBURST" (.replicate 2 .zero),
    .vector "ARLOCK" (.replicate 2 .zero),
    .vector "ARCACHE" (.replicate 4 .zero),
    .vector "ARPROT" (.replicate 3 .zero), .vector "ARQOS" (.replicate 4 .z),
    .vector "ARID" (.replicate widths.ridWidth .zero),
    .bit "RVALID" .z, .bit "RREADY" .z,
    .vector "RDATA" (.replicate widths.dataWidth .z),
    .vector "RRESP" (.replicate 2 .zero),
    .vector "RID" (.replicate widths.ridWidth .zero),
    .vector "IRQ" (.replicate widths.irqWidth .z)]

/-- `AXI4Protocol`. -/
def axi4 (name : CString) (widths : Axi4.Widths) : TracedBus where
  name := name
  labels := axi4Labels widths
  initial := axi4Initial widths

/-! ## PCIe -/

/-- `trace_init` of `PCIeTLP`. -/
def pcieTLPLabels : List TraceLabel :=
  [.bit "user_clk", .bit "user_reset", .bit "user_lnk_up",
    .bits "m_axis_rx_tdata" 64, .bits "m_axis_rx_tkeep" 8,
    .bit "m_axis_rx_tlast", .bit "m_axis_rx_tready",
    .bit "m_axis_rx_tvalid",
    .bits "s_axis_tx_tdata" 64, .bits "s_axis_tx_tkeep" 8,
    .bit "s_axis_tx_tlast", .bit "s_axis_tx_tready",
    .bit "s_axis_tx_tvalid", .bits "s_axis_tx_tuser" 4,
    .bits "tx_buf_av" 6]

/-- `PCIeTLP`; there is no label `user_clk_out`. -/
def pcieTLP (name : CString) : TracedBus where
  name := name
  labels := pcieTLPLabels
  initial :=
    [.bit "user_clk_out" .one, .bit "user_reset" .one, .bit "user_lnk_up" .one,
      .bit "m_axis_rx_tready" .x]

/-! ## PCI -/

/-- `trace_init` of `PciProtocol`. -/
def pciProtocolLabels : List TraceLabel :=
  [.bit "PCI_CLK", .bit "RESET#", .bit "FRAME#", .bit "REQ64#",
    .bit "IRDY#", .bit "TRDY#", .bit "STOP#", .bit "DEVSEL#",
    .bit "ACK64#", .bit "PAR", .bit "PAR64", .bits "AD" 32,
    .bits "AD64" 32, .bits "C/BE#" 4, .bits "C/BE64#" 4, .bits "INTA#" 16,
    .bits "INTB#" 16, .bits "INTC#" 16, .bits "INTD#" 16, .bits "REQ#" 16,
    .text "Bus grant", .text "Bus master", .text "PCIXCAP"]

/-- `PciProtocol`, whose only value comes in `trace_init`. -/
def pciProtocol {n : Nat} (name : CString) (bus : Pci.PciBus n) : TracedBus where
  name := name
  labels := pciProtocolLabels
  initial :=
    [⟨"PCIXCAP", .string
      (if bus.pcixcap = .one then
        ⟨['y', 'e', 's'], by decide⟩
      else
        ⟨['n', 'o'], by decide⟩)⟩]

/-! ## All of them -/

/-- A bus whose labels are some of a list. -/
theorem sound_of_sublist
    {bus : TracedBus}
    {labs : List String}
    (isPart : (bus.labels.map (·.lab)).Sublist labs)
    (distinct : labs.Nodup)
    (cStrings : ∀ lab ∈ labs, IsCString lab.toList)
    {sample : Sample}
    (member : sample ∈ bus.initial)
    (isLabel : sample.lab ∈ bus.labels.map (·.lab))
    (counts : sample.value.Counts) :
    bus.Sound where
  distinct := distinct.sublist isPart
  cStrings := fun label member =>
    cStrings label.lab (isPart.subset (List.mem_map_of_mem member))
  records := ⟨sample, member, isLabel, counts⟩

theorem pointToPoint_sound
    (name : CString)
    (proto : P2p.PointToPoint) :
    (pointToPoint name proto).Sound := by
  have isPart : ((pointToPointLabels proto.widI proto.widO).map (·.lab)).Sublist
      ["CLOCK", "CLOCK_MODE", "DATA_I", "DATA_O"] := by
    rw [pointToPointLabels]
    split <;> split
    · exact List.Sublist.refl _
    · exact .cons_cons _ (.cons_cons _ (.cons_cons _ (List.nil_sublist _)))
    · exact .cons_cons _ (.cons_cons _ (.cons _ (List.Sublist.refl _)))
    · exact .cons_cons _ (.cons_cons _ (List.nil_sublist _))
  exact sound_of_sublist isPart (by decide) (by decide) List.mem_cons_self
    (List.mem_map.mpr ⟨.bit "CLOCK", List.mem_cons_self, rfl⟩) (by decide)

theorem axi4_sound (name : CString) (widths : Axi4.Widths) :
    (axi4 name widths).Sound := by
  have isPart : ((axi4Labels widths).map (·.lab)).Sublist
      ((axi4Labels ⟨0, 0, 0, 0, 1⟩).map (·.lab)) := by
    rw [axi4Labels, List.map_append]
    refine List.Sublist.append (List.Sublist.refl _) ?_
    split
    · exact List.Sublist.refl _
    · exact List.nil_sublist _
  exact sound_of_sublist isPart (by decide) (by decide) List.mem_cons_self
    (List.mem_map.mpr ⟨.bit "ACLK", List.mem_cons_self, rfl⟩) (by decide)

theorem pcieTLP_sound (name : CString) : (pcieTLP name).Sound := by
  have isPart : (pcieTLPLabels.map (·.lab)).Sublist
      (pcieTLPLabels.map (·.lab)) := List.Sublist.refl _
  exact sound_of_sublist isPart (by decide) (by decide)
    (List.mem_cons_of_mem _ List.mem_cons_self)
    (List.mem_map.mpr ⟨.bit "user_reset",
      List.mem_cons_of_mem _ List.mem_cons_self, rfl⟩) (by decide)

theorem pciProtocol_sound
    {n : Nat}
    (name : CString)
    (bus : Pci.PciBus n) :
    (pciProtocol name bus).Sound := by
  have isPart : (pciProtocolLabels.map (·.lab)).Sublist
      (pciProtocolLabels.map (·.lab)) := List.Sublist.refl _
  refine sound_of_sublist isPart (by decide) (by decide) List.mem_cons_self
    (List.mem_map.mpr ⟨.text "PCIXCAP", ?_, rfl⟩) ?_
  · simp [pciProtocol, pciProtocolLabels]
  · intro isBits
    cases isBits

/-- Values of different labels are steady. -/
theorem steady_of_nodup
    {samples : List Sample}
    (distinct : (samples.map (·.lab)).Nodup) :
    Steady samples :=
  (List.pairwise_map.mp distinct).imp fun differ same => absurd same differ

/-- A bus of any protocol. -/
inductive IsProtocol (name : CString) : TracedBus → Prop
  | pointToPoint (proto : P2p.PointToPoint) : IsProtocol name (pointToPoint name proto)
  | axi4 (widths : Axi4.Widths) : IsProtocol name (axi4 name widths)
  | pcieTLP : IsProtocol name (pcieTLP name)
  | pciProtocol {n : Nat} (bus : Pci.PciBus n) : IsProtocol name (pciProtocol name bus)

/-- All protocols can take the file, and give each label one value at first. -/
theorem IsProtocol.sound
    {name : CString}
    {bus : TracedBus}
    (isProtocol : IsProtocol name bus) :
    bus.Sound ∧ Steady bus.initial := by
  cases isProtocol with
  | pointToPoint proto =>
      refine ⟨pointToPoint_sound name proto, steady_of_nodup ?_⟩
      change ["CLOCK", "CLOCK_MODE"].Nodup
      decide
  | axi4 widths =>
      refine ⟨axi4_sound name widths, steady_of_nodup ?_⟩
      change ((axi4Initial ⟨0, 0, 0, 0, 0⟩).map (·.lab)).Nodup
      decide
  | pcieTLP =>
      refine ⟨pcieTLP_sound name, steady_of_nodup ?_⟩
      change ["user_clk_out", "user_reset", "user_lnk_up", "m_axis_rx_tready"].Nodup
      decide
  | pciProtocol bus =>
      exact ⟨pciProtocol_sound name bus, List.pairwise_singleton _ _⟩

/--
Every signal in the file belongs to the bus that was assembled first; all other
buses only set the time.
-/
theorem only_first_bus_dumped
    {buses : String → TracedBus}
    {first : String}
    {name : CString}
    (isProtocol : IsProtocol name (buses first))
    {rest : List DumpEvent}
    {dump : Dump}
    (ran : Dump.run buses (.assemblyComplete first :: rest) = some dump) :
    dump.trace.facilities = (buses first).facilities ∧
      ∀ port, port ≠ first →
        (∀ dump', dump.perform buses (.assemblyComplete port) = some dump' →
          dump'.trace = dump.trace) ∧
        ∀ time samples dump',
          dump.perform buses (.busReady port time samples) = some dump' →
          dump.trace.setTime time = some dump'.trace := by
  have oneBus := Dump.run_oneBus isProtocol.sound.1 ran
  refine ⟨oneBus.facilities, fun port notFirst => ⟨?_, ?_⟩⟩
  · intro dump' performed
    obtain ⟨_, rfl⟩ := oneBus.assembled_late performed
    rfl
  · intro time samples dump' performed
    obtain ⟨trace, isTimed, rfl⟩ := oneBus.ran_late notFirst performed
    exact isTimed

/-- Of two point-to-point buses the second one does not get into the file. -/
theorem only_first_bus_dumped_two :
    ∃ buses dump, (∀ port, ∃ name, IsProtocol name (buses port)) ∧
      Dump.run buses [.assemblyComplete "tcp:1", .assemblyComplete "tcp:2"] =
        some dump ∧
      dump.trace.facilities.length = 2 ∧
      ∀ dump', dump.perform buses
          (.busReady "tcp:2" 3 [.bit "CLOCK" .zero]) = some dump' →
        dump.trace.setTime 3 = some dump'.trace := by
  let proto : P2p.PointToPoint := ⟨.ofOptions ⟨2, 2, 1, 1⟩, .run, 0, 0⟩
  let buses : String → TracedBus := fun port =>
    if port = "tcp:1" then
      pointToPoint ⟨['a'], by decide⟩ proto
    else
      pointToPoint ⟨['b'], by decide⟩ proto
  have isSome : (Dump.run buses
      [.assemblyComplete "tcp:1", .assemblyComplete "tcp:2"]).isSome := by
    decide +kernel
  obtain ⟨dump, ran⟩ := Option.isSome_iff_exists.mp isSome
  obtain ⟨isFirst, others⟩ := only_first_bus_dumped (.pointToPoint proto) ran
  have isLate := (others "tcp:2" (by decide)).2
  refine ⟨buses, dump, fun port => ?_, ran, ?_, isLate 3 _⟩
  · change ∃ name, IsProtocol name (if port = "tcp:1" then _ else _)
    split
    · exact ⟨_, .pointToPoint proto⟩
    · exact ⟨_, .pointToPoint proto⟩
  · rw [isFirst]
    rfl

/--
While the times of all buses do not go back, the file shows for every signal of
the first bus the value of its last run up to a time.
-/
theorem dump_playback
    {buses : String → TracedBus}
    {first : String}
    {name : CString}
    (isProtocol : IsProtocol name (buses first))
    {rest : List DumpEvent}
    (few : Dump.Few buses first (.assemblyComplete first :: rest))
    (rising : (rest.filterMap DumpEvent.time?).Pairwise (· ≤ ·))
    (steady : ∀ time samples, .busReady first time samples ∈ rest →
      Steady samples)
    {dump : Dump}
    (ran : Dump.run buses (.assemblyComplete first :: rest) = some dump) :
    ∃ closed waveform, dump.finish = some closed ∧
      readFile closed = some waveform ∧
      ∀ label ∈ (buses first).labels, ∀ time,
        waveform.value ((buses first).name.text ++ '.' :: label.lab.toList) time =
          some (Timeline.valueAt (traceFacility (buses first).name label).initial
            (signalHistory buses first label (.assemblyComplete first :: rest))
            time) := by
  obtain ⟨sound, steadyFirst⟩ := isProtocol.sound
  exact (Dump.run_recorded sound steadyFirst few rising steady ran).playback few

/-- The clock of the first bus stays as it is when the second bus runs. -/
theorem dump_playback_clock :
    ∃ buses dump closed waveform,
      (∀ port, ∃ name, IsProtocol name (buses port)) ∧
      Dump.run buses
        [.assemblyComplete "tcp:1", .assemblyComplete "tcp:2",
          .busReady "tcp:1" 3 [.bit "CLOCK" .zero],
          .busReady "tcp:2" 5 [.bit "CLOCK" .one]] = some dump ∧
      dump.finish = some closed ∧ readFile closed = some waveform ∧
      waveform.value ['a', '.', 'C', 'L', 'O', 'C', 'K'] 2 = some ['1'] ∧
      waveform.value ['a', '.', 'C', 'L', 'O', 'C', 'K'] 6 = some ['0'] := by
  let proto : P2p.PointToPoint := ⟨.ofOptions ⟨2, 2, 1, 1⟩, .run, 0, 0⟩
  let buses : String → TracedBus := fun port =>
    if port = "tcp:1" then
      pointToPoint ⟨['a'], by decide⟩ proto
    else
      pointToPoint ⟨['b'], by decide⟩ proto
  let rest : List DumpEvent :=
    [.assemblyComplete "tcp:2", .busReady "tcp:1" 3 [.bit "CLOCK" .zero],
      .busReady "tcp:2" 5 [.bit "CLOCK" .one]]
  have isSome : (Dump.run buses (.assemblyComplete "tcp:1" :: rest)).isSome := by
    decide +kernel
  obtain ⟨dump, ran⟩ := Option.isSome_iff_exists.mp isSome
  have few : Dump.Few buses "tcp:1" (.assemblyComplete "tcp:1" :: rest) := by
    constructor
    · change 2 + 3 + 18 ≤ 256 ^ 4
      decide
    · change 2 < 256 ^ 3
      decide
  have steady : ∀ time samples, .busReady "tcp:1" time samples ∈ rest →
      Steady samples := by
    intro time samples member
    have isRun : DumpEvent.busReady "tcp:1" time samples =
        .busReady "tcp:1" 3 [.bit "CLOCK" .zero] := by
      rcases List.mem_cons.mp member with impossible | member
      · cases impossible
      · rcases List.mem_cons.mp member with isRun | member
        · exact isRun
        · have isOther := List.mem_singleton.mp member
          exact absurd (DumpEvent.busReady.inj isOther).1 (by decide)
    rw [(DumpEvent.busReady.inj isRun).2.2]
    exact List.pairwise_singleton _ _
  obtain ⟨closed, waveform, isClosed, isFile, values⟩ :=
    dump_playback (.pointToPoint proto) few (by decide) steady ran
  have clock := values (.bit "CLOCK") List.mem_cons_self
  refine ⟨buses, dump, closed, waveform, fun port => ?_, ran, isClosed, isFile,
    (clock 2).trans (congrArg some ?_), (clock 6).trans (congrArg some ?_)⟩
  · change ∃ name, IsProtocol name (if port = "tcp:1" then _ else _)
    split
    · exact ⟨_, .pointToPoint proto⟩
    · exact ⟨_, .pointToPoint proto⟩
  · decide +kernel
  · decide +kernel

end Simbus.Service
