import Simbus.Pci.Interrupts
import Simbus.Service.DumpServer
import Mathlib

/-!
# The trace file of a PCI bus

A PCI bus traces the resolved lines once for every device and the interrupts once
for every host.  All values that a run gives for a signal are the same, since the
hosts are sent the same interrupts, and so the file shows what the runs have given.
-/

set_option autoImplicit false

namespace Simbus.Pci

open FourValued (Logic4)
open Lxt2 (CString Waveform readFile)
open Service

variable {n : Nat}

/-! ## What a run traces -/

/-- The lines that `blend_bi_signals_` traces, with their labels. -/
def busLines : List (TraceLabel × (BiSignals → TraceValue)) :=
  [(.bit "FRAME#", fun blended => .bit blended.frameN),
    (.bit "REQ64#", fun blended => .bit blended.req64N),
    (.bit "IRDY#", fun blended => .bit blended.irdyN),
    (.bit "TRDY#", fun blended => .bit blended.trdyN),
    (.bit "STOP#", fun blended => .bit blended.stopN),
    (.bit "DEVSEL#", fun blended => .bit blended.devselN),
    (.bit "ACK64#", fun blended => .bit blended.ack64N),
    (.bits "AD" 32, fun blended => .vector
      (List.ofFn fun idx : Fin 32 => blended.ad (idx.castLE (by decide)))),
    (.bits "AD64" 32, fun blended => .vector
      (List.ofFn fun idx : Fin 32 => blended.ad (idx.natAdd 32))),
    (.bits "C/BE#" 4, fun blended => .vector
      (List.ofFn fun idx : Fin 4 => blended.cBe (idx.castLE (by decide)))),
    (.bits "C/BE64#" 4, fun blended => .vector
      (List.ofFn fun idx : Fin 4 => blended.cBe (idx.natAdd 4))),
    (.bit "PAR", fun blended => .bit blended.par),
    (.bit "PAR64", fun blended => .bit blended.par64)]

/-- The calls of `set_trace_` in `blend_bi_signals_` for one device. -/
def lineSamples (blended : BiSignals) : List Sample :=
  busLines.map fun line => ⟨line.1.lab, line.2 blended⟩

/-- The calls of `set_trace_` in `route_interrupts_` for one host. -/
def interruptSamples (sent : Fin 4 → Fin 16 → Logic4) : List Sample :=
  [.vector "INTA#" (List.ofFn (sent 0)), .vector "INTB#" (List.ofFn (sent 1)),
    .vector "INTC#" (List.ofFn (sent 2)), .vector "INTD#" (List.ofFn (sent 3))]

/-- The name of a device, or that there is none. -/
def ownerSample
    (names : Fin n → CString)
    (lab : String)
    (owner : Option (Fin n)) : Sample :=
  ⟨lab, .string (owner.elim ⟨['<', '>'], by decide⟩ names)⟩

namespace PciProtocol

/--
The calls of `set_trace_` in `track_req_n_`: the owner is traced when it changes, and
as long as there is neither an owner nor a grant.
-/
def trackSamples
    (names : Fin n → CString)
    (before after : PciProtocol n) : List Sample :=
  if after.phase = 0 then
    .vector "REQ#" (List.ofFn after.reqN) ::
      if before.master = none ∧ before.granted = none ∨
          after.master ≠ before.master then
        [ownerSample names "Bus master" after.master]
      else
        []
  else
    []

/-- The calls of `set_trace_` in `arbitrate_`: the grant is traced when it moves. -/
def arbitrateSamples
    (names : Fin n → CString)
    (before after : PciProtocol n) : List Sample :=
  if after.granted ≠ before.granted then
    [ownerSample names "Bus grant" after.granted]
  else
    []

/-- The calls of `set_trace_` in `run_run`. -/
def samples
    (bus : PciBus n)
    (names : Fin n → CString)
    (before after : PciProtocol n) : List Sample :=
  trackSamples names before after ++ arbitrateSamples names before after ++
    (List.finRange n).flatMap (fun dev =>
      if bus.hostFlag dev then
        (after.sendSignals dev).intN.elim [] interruptSamples
      else
        []) ++
    (List.finRange n).flatMap (fun _ =>
      lineSamples (blendedBus after.clientSignals)) ++
    [.bit "PCI_CLK" (clkVal after.phase),
      .bit "RESET#" (calculateResetN bus after.clientSignals (List.finRange n) .one)]

end PciProtocol

open PciProtocol

/-- What is traced in a run; nothing if the protocol has failed. -/
def tracedIn
    (bus : PciBus n)
    (names : Fin n → CString)
    (input : ServerInput n)
    (step : Nat) : List Sample :=
  match serverRun bus input step, serverRun bus input (step + 1) with
  | .ok before, .ok after => PciProtocol.samples bus names before after
  | _, _ => []

section

variable {bus : PciBus n}
variable {names : Fin n → CString}
variable {input : ServerInput n}

/-- All hosts have been sent the same interrupts. -/
def SameVectors (bus : PciBus n) (proto : PciProtocol n) : Prop :=
  ∃ sent, ∀ dev, bus.hostFlag dev = true →
    (proto.sendSignals dev).intN = some sent

/-- They stay the same in every round, as every round collects them once. -/
theorem SameVectors.round
    {proto proto' : PciProtocol n}
    (same : SameVectors bus proto)
    (round : Round bus proto proto') :
    SameVectors bus proto' := by
  obtain ⟨sent, areSent⟩ := same
  refine ⟨fun line idx => (collected bus proto.clientSignals line idx).getD
    (sent line idx), fun dev isHost => ?_⟩
  rw [round.intN_eq dev, areSent dev isHost]
  rfl

theorem serverRun_sameVectors
    {step : Nat}
    {proto : PciProtocol n}
    (success : serverRun bus input step = .ok proto) :
    SameVectors bus proto := by
  induction step generalizing proto with
  | zero =>
      rw [serverRun, Except.ok.injEq] at success
      subst success
      refine ⟨fun _ _ => .one, fun dev isHost => ?_⟩
      simp only [runInit, initSend, isHost, if_true]
  | succ step inductionHypothesis =>
      obtain ⟨before, reached, success⟩ := serverRun_succ success
      have invariant :=
        (serverRun_grantInvariant reached).report (input.inputs step)
      have unchanged := inductionHypothesis reached
      have same : SameVectors bus
          { before with clientSignals := input.inputs step } := unchanged
      exact same.round (round_of_runRun invariant.attached success)

/-- Every signal with the only value that a run can give it. -/
def allSamples
    (bus : PciBus n)
    (names : Fin n → CString)
    (after : PciProtocol n)
    (sent : Fin 4 → Fin 16 → Logic4) : List Sample :=
  [.vector "REQ#" (List.ofFn after.reqN),
    ownerSample names "Bus master" after.master,
    ownerSample names "Bus grant" after.granted] ++
    interruptSamples sent ++ lineSamples (blendedBus after.clientSignals) ++
    [.bit "PCI_CLK" (clkVal after.phase),
      .bit "RESET#" (calculateResetN bus after.clientSignals (List.finRange n) .one)]

theorem allSamples_distinct
    (after : PciProtocol n)
    (sent : Fin 4 → Fin 16 → Logic4) :
    ((allSamples bus names after sent).map (·.lab)).Nodup := by
  change (["REQ#", "Bus master", "Bus grant", "INTA#", "INTB#", "INTC#", "INTD#",
    "FRAME#", "REQ64#", "IRDY#", "TRDY#", "STOP#", "DEVSEL#", "ACK64#", "AD", "AD64",
    "C/BE#", "C/BE64#", "PAR", "PAR64", "PCI_CLK", "RESET#"] : List String).Nodup
  decide

theorem mem_trackSamples
    {before after : PciProtocol n}
    {sample : Sample}
    (member : sample ∈ trackSamples names before after) :
    sample = .vector "REQ#" (List.ofFn after.reqN) ∨
      sample = ownerSample names "Bus master" after.master := by
  rw [trackSamples] at member
  split at member
  · rcases List.mem_cons.mp member with isRequests | isOwner
    · exact .inl isRequests
    · split at isOwner
      · exact .inr (List.mem_singleton.mp isOwner)
      · cases isOwner
  · cases member

theorem mem_arbitrateSamples
    {before after : PciProtocol n}
    {sample : Sample}
    (member : sample ∈ arbitrateSamples names before after) :
    sample = ownerSample names "Bus grant" after.granted := by
  rw [arbitrateSamples] at member
  split at member
  · exact List.mem_singleton.mp member
  · cases member

theorem samples_subset
    {before after : PciProtocol n}
    {sent : Fin 4 → Fin 16 → Logic4}
    (areSent : ∀ dev, bus.hostFlag dev = true →
      (after.sendSignals dev).intN = some sent) :
    PciProtocol.samples bus names before after ⊆ allSamples bus names after sent := by
  intro sample member
  rw [PciProtocol.samples, List.mem_append, List.mem_append, List.mem_append,
    List.mem_append] at member
  rw [allSamples, List.mem_append, List.mem_append, List.mem_append]
  rcases member with (((isTracked | isGrant) | isInterrupt) | isLine) | isLast
  · refine .inl (.inl (.inl ?_))
    rcases mem_trackSamples isTracked with rfl | rfl
    · exact List.mem_cons_self
    · exact List.mem_cons_of_mem _ List.mem_cons_self
  · refine .inl (.inl (.inl ?_))
    rw [mem_arbitrateSamples isGrant]
    exact List.mem_cons_of_mem _ (List.mem_cons_of_mem _ List.mem_cons_self)
  · refine .inl (.inl (.inr ?_))
    obtain ⟨dev, _, isSent⟩ := List.mem_flatMap.mp isInterrupt
    split at isSent
    · rename_i isHost
      rw [areSent dev isHost] at isSent
      exact isSent
    · cases isSent
  · obtain ⟨_, _, isLine⟩ := List.mem_flatMap.mp isLine
    exact .inl (.inr isLine)
  · exact .inr isLast

/-- All values that a run gives for a signal are the same. -/
theorem tracedIn_agrees
    (bus : PciBus n)
    (names : Fin n → CString)
    (input : ServerInput n)
    (step : Nat) :
    ∀ first ∈ tracedIn bus names input step,
      ∀ second ∈ tracedIn bus names input step,
        first.lab = second.lab → first = second := by
  rw [tracedIn]
  split
  · rename_i before after _ isAfter
    obtain ⟨sent, areSent⟩ := serverRun_sameVectors isAfter
    have among := @samples_subset n bus names before after sent areSent
    have oneEach := List.inj_on_of_nodup_map
      (@allSamples_distinct n bus names after sent)
    intro first isFirst second isSecond same
    exact oneEach (among isFirst) (among isSecond) same
  · intro first isFirst
    cases isFirst

theorem tracedIn_steady
    (bus : PciBus n)
    (names : Fin n → CString)
    (input : ServerInput n)
    (step : Nat) :
    Steady (tracedIn bus names input step) := by
  refine List.pairwise_of_forall_mem_list fun first isFirst second isSecond same => ?_
  rw [tracedIn_agrees bus names input step first isFirst second isSecond same]
  exact fun _ _ => rfl

theorem tracedIn_fits
    (bus : PciBus n)
    (names : Fin n → CString)
    (input : ServerInput n)
    (step : Nat) :
    ∀ sample ∈ tracedIn bus names input step, sample.value.Fits := by
  rw [tracedIn]
  split
  · rename_i before after _ isAfter
    obtain ⟨sent, areSent⟩ := serverRun_sameVectors isAfter
    have allFit : ∀ sample ∈ allSamples bus names after sent, sample.value.Fits := by
      simp only [allSamples, interruptSamples, lineSamples, busLines, ownerSample,
        Sample.bit, Sample.vector, List.map_cons, List.map_nil, List.cons_append,
        List.nil_append, List.forall_mem_cons, TraceValue.Fits, List.length_ofFn,
        List.not_mem_nil, false_implies, implies_true, true_and, and_true]
      decide
    exact fun sample member => allFit sample (samples_subset areSent member)
  · intro sample member
    cases member

/-- A bus has no more devices than there are numbers. -/
theorem devices_le (bus : PciBus n) : n ≤ 16 := by
  have atMost := Fintype.card_le_of_injective _ bus.identInjective
  rw [Fintype.card_fin, Fintype.card_fin] at atMost
  exact atMost

theorem length_tracedIn_le
    (bus : PciBus n)
    (names : Fin n → CString)
    (input : ServerInput n)
    (step : Nat) :
    (tracedIn bus names input step).length ≤ 277 := by
  have devices := devices_le bus
  rw [tracedIn]
  split
  · rename_i before after _ _
    have tracks : (trackSamples names before after).length ≤ 2 := by
      rw [trackSamples]
      split
      · split <;> simp
      · exact Nat.zero_le _
    have grants : (arbitrateSamples names before after).length ≤ 1 := by
      rw [arbitrateSamples]
      split
      · exact Nat.le_refl _
      · exact Nat.zero_le _
    have ofDevices : ∀ {each : Fin n → List Sample} {most : Nat},
        (∀ dev, (each dev).length ≤ most) →
          ((List.finRange n).flatMap each).length ≤ n * most := by
      intro each most atMost
      rw [List.length_flatMap]
      have sumLe := List.sum_le_card_nsmul ((List.finRange n).map fun dev =>
        (each dev).length) most (by
          intro length member
          obtain ⟨dev, _, rfl⟩ := List.mem_map.mp member
          exact atMost dev)
      rw [List.length_map, List.length_finRange] at sumLe
      exact sumLe
    have interrupts := @ofDevices (fun dev =>
      if bus.hostFlag dev then
        (after.sendSignals dev).intN.elim [] interruptSamples
      else
        []) 4 (by
          intro dev
          split
          · cases (after.sendSignals dev).intN with
            | none => exact Nat.zero_le _
            | some sent => exact Nat.le_refl 4
          · exact Nat.zero_le _)
    have lines := @ofDevices
      (fun _ => lineSamples (blendedBus after.clientSignals)) 13
        fun _ => Nat.le_refl 13
    rw [PciProtocol.samples, List.length_append, List.length_append,
      List.length_append, List.length_append, List.length_cons, List.length_singleton]
    omega
  · exact Nat.zero_le _

/-! ## The lines -/

/-- A line is recorded as it is. -/
theorem entry_line
    (name : CString)
    (blended : BiSignals)
    (time : BitVec 64) :
    ∀ line ∈ busLines, line.1.entry name (time, ⟨line.1.lab, line.2 blended⟩) =
      some (time, (line.2 blended).text) := by
  have ofLevels : ∀ {wid : Nat} (lab : String) (levels : Fin wid → Logic4),
      0 < wid → Traced wid →
        (TraceLabel.bits lab wid).entry name (time, .vector lab (List.ofFn levels)) =
          some (time, (TraceValue.vector (List.ofFn levels)).text) := by
    intro wid lab levels positive traced
    have isWidth : (List.ofFn levels).length = wid := List.length_ofFn
    have someBits : List.ofFn levels ≠ [] := by
      intro noBits
      rw [noBits] at isWidth
      exact absurd isWidth (Nat.ne_of_lt positive)
    rw [entry_vector positive traced, if_neg someBits, normalize_bitChars isWidth]
    rfl
  have wide : Traced 32 := by
    decide
  have narrow : Traced 4 := by
    decide
  simp only [busLines, List.forall_mem_cons]
  refine ⟨entry_bit _ _ _, entry_bit _ _ _, entry_bit _ _ _, entry_bit _ _ _,
    entry_bit _ _ _, entry_bit _ _ _, entry_bit _ _ _,
    ofLevels _ _ (by decide) wide, ofLevels _ _ (by decide) wide,
    ofLevels _ _ (by decide) narrow, ofLevels _ _ (by decide) narrow,
    entry_bit _ _ _, entry_bit _ _ _, ?_⟩
  intro line member
  cases member

/-- The labels of what a run traces beside the lines. -/
def otherLabs : List String :=
  ["REQ#", "Bus master", "Bus grant", "INTA#", "INTB#", "INTC#", "INTD#", "PCI_CLK",
    "RESET#"]

/-- A run gives the resolved line once for every device. -/
theorem tracedIn_line
    (name : CString)
    {step : Nat}
    {before after : PciProtocol n}
    (isBefore : serverRun bus input step = .ok before)
    (isAfter : serverRun bus input (step + 1) = .ok after)
    {line : TraceLabel × (BiSignals → TraceValue)}
    (member : line ∈ busLines)
    (time : BitVec 64) :
    ((tracedIn bus names input step).map (Prod.mk time)).filterMap
        (line.1.entry name) =
      List.replicate n (time, (line.2 (blendedBus (input.inputs step))).text) := by
  have ownName : ∀ line ∈ busLines, line.1.lab ∉ otherLabs := by
    decide
  have notOther := ownName line member
  have noTrack : ((trackSamples names before after).map (Prod.mk time)).filterMap
      (line.1.entry name) = [] := by
    refine entries_of_ne (fun sample isTracked same => notOther ?_) time
    rw [← same]
    rcases mem_trackSamples isTracked with rfl | rfl
    · exact (by decide : "REQ#" ∈ otherLabs)
    · exact (by decide : "Bus master" ∈ otherLabs)
  have noGrant : ((arbitrateSamples names before after).map
      (Prod.mk time)).filterMap (line.1.entry name) = [] := by
    refine entries_of_ne (fun sample isGrant same => notOther ?_) time
    rw [← same]
    rw [mem_arbitrateSamples isGrant]
    exact (by decide : "Bus grant" ∈ otherLabs)
  have noInterrupt : (((List.finRange n).flatMap (fun dev =>
      if bus.hostFlag dev then
        (after.sendSignals dev).intN.elim [] interruptSamples
      else
        [])).map (Prod.mk time)).filterMap (line.1.entry name) = [] := by
    refine entries_of_ne (fun sample isInterrupt same => notOther ?_) time
    rw [← same]
    obtain ⟨dev, _, isSent⟩ := List.mem_flatMap.mp isInterrupt
    split at isSent
    · cases isVector : (after.sendSignals dev).intN with
      | none =>
          rw [isVector] at isSent
          cases isSent
      | some sent =>
          rw [isVector] at isSent
          have isLab : sample.lab ∈ (interruptSamples sent).map (·.lab) :=
            List.mem_map_of_mem isSent
          have areOther : ∀ lab ∈ ["INTA#", "INTB#", "INTC#", "INTD#"],
              lab ∈ otherLabs := by
            decide
          exact areOther _ isLab
    · cases isSent
  have noLast : (([.bit "PCI_CLK" (clkVal after.phase), .bit "RESET#"
      (calculateResetN bus after.clientSignals (List.finRange n) .one)] :
        List Sample).map (Prod.mk time)).filterMap (line.1.entry name) = [] := by
    refine entries_of_ne (fun sample isLast same => notOther ?_) time
    rw [← same]
    rcases List.mem_cons.mp isLast with rfl | isReset
    · exact (by decide : "PCI_CLK" ∈ otherLabs)
    · rw [List.mem_singleton.mp isReset]
      exact (by decide : "RESET#" ∈ otherLabs)
  have invariant := serverRun_grantInvariant isBefore
  obtain ⟨again, reached, success⟩ := serverRun_succ isAfter
  have isSame : before = again := Except.ok.inj (isBefore.symm.trans reached)
  subst isSame
  have clients : after.clientSignals = input.inputs step :=
    (round_of_runRun (invariant.report (input.inputs step)).attached
      success).clientSignals_eq
  have distinct : ((lineSamples (blendedBus after.clientSignals)).map
      (·.lab)).Nodup := by
    change (busLines.map fun line => line.1.lab).Nodup
    decide
  have isSample : (⟨line.1.lab, line.2 (blendedBus after.clientSignals)⟩ : Sample) ∈
      lineSamples (blendedBus after.clientSignals) :=
    List.mem_map_of_mem member
  have each := @entries_of_mem name line.1 _ distinct _ isSample rfl time
  rw [entry_line name _ time line member] at each
  have isTraced : tracedIn bus names input step =
      PciProtocol.samples bus names before after := by
    rw [tracedIn, isBefore, isAfter]
  simp only [isTraced, PciProtocol.samples, List.map_append, List.filterMap_append,
    noTrack, noGrant, noInterrupt, noLast, List.nil_append, List.append_nil]
  rw [List.map_flatMap, List.filterMap_flatMap]
  simp only [each, Option.toList_some]
  rw [← List.map_eq_flatMap, List.map_const', List.length_finRange, clients]

/-! ## The file -/

/-- The server runs one bus. -/
abbrev onlyBus (name : CString) (bus : PciBus n) : String → TracedBus :=
  fun _ => pciProtocol name bus

/-- What the runs have given for a label. -/
def runHistory
    (name : CString)
    (options : ClockOptions)
    (bus : PciBus n)
    (names : Fin n → CString)
    (input : ServerInput n)
    (runs : Nat)
    (label : TraceLabel) : List (BitVec 64 × Lxt2.Text) :=
  ((pciProtocol name bus).initial.map (Prod.mk 0)).filterMap (label.entry name) ++
    (List.range runs).flatMap fun step =>
      ((tracedIn bus names input step).map
        (Prod.mk (BitVec.ofNat 64 (runTime options step)))).filterMap
          (label.entry name)

/-- The lines have labels with bits. -/
theorem lines_labels : ∀ line ∈ busLines, line.1 ∈ pciProtocolLabels := by
  decide

theorem initial_line (name : CString) :
    ∀ line ∈ busLines, (traceFacility name line.1).initial =
      List.replicate line.1.wid.toNat 'x' := by
  have labels : ∀ line ∈ busLines, line.1 = .bits line.1.lab line.1.wid.toNat ∧
      0 < line.1.wid.toNat ∧ Traced line.1.wid.toNat := by
    decide
  intro line member
  obtain ⟨isBits, positive, traced⟩ := labels line member
  have isLength := len_bits name line.1.lab positive traced
  rw [← isBits] at isLength
  rw [Lxt2.Facility.initial, isLength]

/-- The runs have given a line as it was resolved. -/
theorem runHistory_line
    (lingers : 0 < bus.gntLinger)
    (name : CString)
    (options : ClockOptions)
    (runs : Nat)
    {line : TraceLabel × (BiSignals → TraceValue)}
    (member : line ∈ busLines) :
    runHistory name options bus names input runs line.1 =
      (List.range runs).flatMap fun step =>
        List.replicate n (BitVec.ofNat 64 (runTime options step),
          (line.2 (blendedBus (input.inputs step))).text) := by
  have notInitial : ∀ line ∈ busLines, line.1.lab ≠ "PCIXCAP" := by
    decide
  have noInitial : ((pciProtocol name bus).initial.map (Prod.mk 0)).filterMap
      (line.1.entry name) = [] := by
    refine entries_of_ne (fun sample isInitial same => ?_) 0
    rw [List.mem_singleton.mp isInitial] at same
    exact notInitial line member same.symm
  have each : ∀ step time, ((tracedIn bus names input step).map
      (Prod.mk time)).filterMap (line.1.entry name) =
        List.replicate n
          (time, (line.2 (blendedBus (input.inputs step))).text) := by
    intro step time
    obtain ⟨before, isBefore⟩ := serverRun_survives lingers input step
    obtain ⟨after, isAfter⟩ := serverRun_survives lingers input (step + 1)
    exact tracedIn_line name isBefore isAfter member time
  rw [runHistory, noInitial, List.nil_append]
  simp only [each]

/--
Every run of a PCI bus gives one value to a signal.  The trace file of a server with
one PCI bus shows for every label what the runs of the bus have given, and the lines
as they were resolved, whatever the devices do.
-/
theorem pci_server_playback
    {options : ClockOptions}
    (name : CString)
    (lingers : 0 < bus.gntLinger)
    {config : Config}
    {port : String}
    (isOnly : config.ports = [port])
    {clockPhaseMaps : String → Fin 4 → BitVec 64}
    (isClock : clockPhaseMaps port = (BusClock.ofOptions options).clockPhaseMap)
    {inputs : Nat → Selection}
    {turn : Nat}
    {dumped : DumpedServer}
    (reached : dumpedRun config clockPhaseMaps (fun _ => tracedIn bus names input)
      inputs turn = some dumped)
    (isAssembled :
      (dumped.traced.server.busMap port).needInitialization = false)
    (short : runTime options (dumped.ran port) < 2 ^ 32)
    (fewRuns : dumped.ran port + 3 ≤ 2 ^ 23) :
    ∃ proto dump closed waveform,
      serverRun bus input (dumped.ran port) = .ok proto ∧
        (∀ step, ∀ first ∈ tracedIn bus names input step,
          ∀ second ∈ tracedIn bus names input step,
            first.lab = second.lab → first = second) ∧
        Dump.run (onlyBus name bus) dumped.events = some dump ∧
        dump.finish = some closed ∧ readFile closed = some waveform ∧
        (∀ label ∈ pciProtocolLabels, ∀ time,
          waveform.value (name.text ++ '.' :: label.lab.toList) time =
            some (Timeline.valueAt (traceFacility name label).initial
              (runHistory name options bus names input (dumped.ran port) label)
              time)) ∧
        (0 < n → ∀ line ∈ busLines, ∀ time,
          waveform.value (name.text ++ '.' :: line.1.lab.toList) time =
            some (Timeline.valueAt (List.replicate line.1.wid.toNat 'x')
              ((List.range (dumped.ran port)).map fun step =>
                (BitVec.ofNat 64 (runTime options step),
                  (line.2 (blendedBus (input.inputs step))).text)) time)) := by
  have oneClock := dumpedRun_events isOnly isClock reached
  obtain ⟨proto, isProto⟩ := serverRun_survives lingers input (dumped.ran port)
  have initialFits : (onlyBus name bus port).Fits := by
    refine fits_of_traced ?_ fun sample member => ?_
    · change ∀ label ∈ pciProtocolLabels, Traced label.wid.toNat
      decide
    · rw [List.mem_singleton.mp member]
      trivial
  have atMost := @length_given_clocked_le options (onlyBus name bus) port _ 277
    (length_tracedIn_le bus names input) (dumped.ran port)
  have few : Dump.Few (onlyBus name bus) port (clockedEvents options port
      (tracedIn bus names input) (dumped.ran port)) := by
    constructor
    · have fewInitial : (onlyBus name bus port).initial.length = 1 := rfl
      rw [fewInitial] at atMost
      change 23 + _ + 18 ≤ 256 ^ 4
      omega
    · exact (by decide : 23 < 256 ^ 3)
  obtain ⟨dump, closed, waveform, ran, isClosed, isFile, values⟩ :=
    @clocked_playback options (onlyBus name bus) port (tracedIn bus names input)
      (.pciProtocol bus) initialFits (dumped.ran port)
      (fun step _ => tracedIn_fits bus names input step)
      (fun step _ => tracedIn_steady bus names input step) short few
  rw [oneClock.running isAssembled]
  have shown : ∀ label ∈ pciProtocolLabels, ∀ time,
      waveform.value (name.text ++ '.' :: label.lab.toList) time =
        some (Timeline.valueAt (traceFacility name label).initial
          (runHistory name options bus names input (dumped.ran port) label) time) := by
    intro label member time
    have isValue := values label member time
    rw [signalHistory_flatMap short] at isValue
    exact isValue
  refine ⟨proto, dump, closed, waveform, isProto, tracedIn_agrees bus names input, ran,
    isClosed, isFile, shown, ?_⟩
  intro someDevice line member time
  rw [shown line.1 (lines_labels line member) time, initial_line name line member,
    runHistory_line lingers name options _ member,
    Timeline.valueAt_flatMap_replicate someDevice]

end

/-- A host and a device on one bus. -/
def hostAndDevice : Config where
  ports := ["tcp:1"]
  portsDistinct := onePort_distinct
  devices := fun _ => ["device", "host"]

/-- Both connect and report once. -/
def bothDrive : Nat → Selection
  | 0 => Service.turn (some 3) 3 []
  | 1 => Service.turn (some 4) 3 [.hello "host"]
  | 2 => Service.turn none 4 [.hello "device"]
  | 3 => Service.turn none 3 [.ready]
  | _ => Service.turn none 4 [.ready]

/-- The device holds FRAME# at 0. -/
def deviceFrames : ServerInput 2 where
  reported := fun _ => ⟨none, none, fun _ => none, BiSignals.released⟩
  inputs := fun _ dev =>
    ⟨none, none, fun _ => none,
      { BiSignals.released with frameN := if dev = 1 then .zero else .z }⟩
  random := fun _ => 15

/-- The file shows FRAME# of the device. -/
theorem pci_server_playback_frame :
    ∃ name names dumped dump closed waveform,
      0 < pairBus.gntLinger ∧
        dumpedRun hostAndDevice (fun _ => clockPhaseMap33)
          (fun _ => tracedIn pairBus names deviceFrames) bothDrive 5 = some dumped ∧
        Dump.run (onlyBus name pairBus) dumped.events = some dump ∧
        dump.finish = some closed ∧ readFile closed = some waveform ∧
        waveform.value (name.text ++ '.' :: "FRAME#".toList) 7 = some ['0'] := by
  let name : CString := ⟨['b'], by decide⟩
  let names : Fin 2 → CString := fun _ => ⟨['d'], by decide⟩
  let options : ClockOptions := ⟨15000, 15000, 2000, 2000⟩
  have isClock : clockPhaseMap33 = (BusClock.ofOptions options).clockPhaseMap := by
    funext phase
    revert phase
    decide
  have turns : (dumpedRun hostAndDevice (fun _ => clockPhaseMap33)
      (fun _ => tracedIn pairBus names deviceFrames) bothDrive 5).any (fun dumped =>
        !(dumped.traced.server.busMap "tcp:1").needInitialization &&
          dumped.ran "tcp:1" == 1) = true := by
    decide +kernel
  obtain ⟨dumped, reached, facts⟩ := (Option.any_eq_true _ _).mp turns
  rw [Bool.and_eq_true, Bool.not_eq_true', beq_iff_eq] at facts
  obtain ⟨isAssembled, isOnce⟩ := facts
  have lingers : 0 < pairBus.gntLinger := by
    decide
  obtain ⟨_, dump, closed, waveform, _, _, ran, isClosed, isFile, _, shows⟩ :=
    @pci_server_playback 2 pairBus names deviceFrames options name lingers _ _ rfl _
      isClock _ _ _ reached isAssembled (by rw [isOnce]; decide)
      (by rw [isOnce]; decide)
  have isValue := shows Nat.two_pos _ List.mem_cons_self 7
  rw [isOnce] at isValue
  exact ⟨name, names, dumped, dump, closed, waveform, lingers, reached, ran, isClosed,
    isFile, isValue.trans (congrArg some (by decide +kernel))⟩

end Simbus.Pci
