import Simbus.Axi4.Server
import Simbus.P2p.Protocol
import Simbus.Pci.Protocol
import Simbus.Pcie.Server
import Mathlib

/-!
# The signals that the protocols use

The server keeps for every device what its READY lines have reported.  The
values stay until the device names them again, except that `run_init` of PCI
releases the bidirectional signals when the bus is assembled.
-/

namespace Simbus

open FourValued

/-! ## What the devices report -/

/-- A READY line of a device. -/
structure Ready (n : Nat) where
  dev : Fin n
  tokens : Tokens String

/-- `client_signals` of the devices of a bus. -/
abbrev PlugSignals (n : Nat) : Type := Fin n → SignalMap String

/-- What the tokens of a line say about a signal: the last one counts. -/
def named (name : String) (tokens : Tokens String) : Option Vector4 :=
  (tokens.reverse.lookup name).map List.reverse

section

variable {n : Nat}

/-- `process_client_ready_`, as far as the signals are concerned. -/
def PlugSignals.ready
    (signals : PlugSignals n)
    (line : Ready n) : PlugSignals n :=
  Function.update signals line.dev
    ((signals line.dev).recordAll line.tokens)

/-- What a line says about a signal of a device. -/
def Ready.value
    (dev : Fin n)
    (name : String)
    (line : Ready n) : Option Vector4 :=
  if line.dev = dev then named name line.tokens else none

/-- What the most recent line that names a signal of a device says. -/
def lastReported
    (lines : List (Ready n))
    (dev : Fin n)
    (name : String) : Option Vector4 :=
  lines.reverse.findSome? (Ready.value dev name)

theorem recordAll_apply
    (signals : SignalMap String)
    (tokens : Tokens String)
    (name : String) :
    signals.recordAll tokens name =
      (named name tokens).getD (signals name) := by
  induction tokens using List.reverseRecOn with
  | nil =>
      rfl
  | append_singleton tokens token inductionHypothesis =>
      rw [SignalMap.recordAll, List.foldl_append]
      change (SignalMap.recordAll signals tokens).record token name = _
      rw [SignalMap.record, named, List.reverse_append]
      change _ = (((token :: tokens.reverse).lookup name).map
        List.reverse).getD _
      obtain ⟨tokenName, text⟩ := token
      by_cases same : name = tokenName
      · subst same
        rw [Function.update_self, List.lookup_cons_self]
        rfl
      · rw [Function.update_of_ne same, inductionHypothesis,
          List.lookup_cons, beq_false_of_ne same]
        rfl

theorem lastReported_append
    (before after : List (Ready n))
    (dev : Fin n)
    (name : String) :
    lastReported (before ++ after) dev name =
      (lastReported after dev name).or (lastReported before dev name) := by
  rw [lastReported, List.reverse_append, List.findSome?_append]
  rfl

theorem lastReported_singleton
    (line : Ready n)
    (dev : Fin n)
    (name : String) :
    lastReported [line] dev name = line.value dev name := by
  rw [lastReported, List.reverse_singleton, List.findSome?_singleton]

/-- One line gives new values to what it names, and leaves the rest. -/
theorem ready_apply
    (signals : PlugSignals n)
    (line : Ready n)
    (dev : Fin n)
    (name : String) :
    signals.ready line dev name =
      (line.value dev name).getD (signals dev name) := by
  rw [PlugSignals.ready, Ready.value]
  by_cases same : line.dev = dev
  · subst same
    rw [Function.update_self, if_pos rfl]
    exact recordAll_apply _ _ name
  · rw [Function.update_of_ne (Ne.symm same), if_neg same]
    rfl

/-- Lines leave what their most recent one says, or what was there before. -/
theorem readies_apply
    (signals : PlugSignals n)
    (lines : List (Ready n))
    (dev : Fin n)
    (name : String) :
    lines.foldl PlugSignals.ready signals dev name =
      (lastReported lines dev name).getD (signals dev name) := by
  induction lines using List.reverseRecOn with
  | nil =>
      rfl
  | append_singleton lines line inductionHypothesis =>
      rw [List.foldl_append, List.foldl_cons, List.foldl_nil, ready_apply,
        inductionHypothesis, lastReported_append, lastReported_singleton]
      cases line.value dev name <;> rfl

end

/-! ## The signals of a PCI device -/

namespace Pci

/-- The bits of a vector that the code accesses, if they are all there. -/
def bits (width : Nat) (vector : Vector4) : Option (Fin width → Logic4) :=
  if enough : width ≤ vector.length then
    some fun index => vector.get ⟨index, Nat.lt_of_lt_of_le index.2 enough⟩
  else
    none

/-- The bidirectional signals that a device has reported. -/
def biSignalsOf (signals : SignalMap String) : Option BiSignals := do
  let frameN ← (signals "FRAME#").head?
  let req64N ← (signals "REQ64#").head?
  let irdyN ← (signals "IRDY#").head?
  let trdyN ← (signals "TRDY#").head?
  let stopN ← (signals "STOP#").head?
  let devselN ← (signals "DEVSEL#").head?
  let ack64N ← (signals "ACK64#").head?
  let cBe ← bits 8 (signals "C/BE#")
  let ad ← bits 64 (signals "AD")
  let par ← (signals "PAR").head?
  let par64 ← (signals "PAR64").head?
  return {
    frameN := frameN
    req64N := req64N
    irdyN := irdyN
    trdyN := trdyN
    stopN := stopN
    devselN := devselN
    ack64N := ack64N
    cBe := cBe
    ad := ad
    par := par
    par64 := par64 }

/-- The signals that a device has reported. -/
def clientSignalsOf (signals : SignalMap String) : Option ClientSignals :=
  (biSignalsOf signals).map fun bi =>
    { resetN := (signals "RESET#").head?
      reqN := (signals "REQ#").head?
      intN
        | 0 => (signals "INTA#").head?
        | 1 => (signals "INTB#").head?
        | 2 => (signals "INTC#").head?
        | 3 => (signals "INTD#").head?
      bi := bi }

/-- The signals of all devices. -/
def allSignalsOf
    {n : Nat}
    (signals : PlugSignals n) : Option (Fin n → ClientSignals) :=
  if present : ∀ dev, (clientSignalsOf (signals dev)).isSome then
    some fun dev => (clientSignalsOf (signals dev)).get (present dev)
  else
    none

/-- The signals that `run_init` resizes and releases, with their widths. -/
def releasedSignals : List (String × Nat) :=
  [("FRAME#", 1), ("REQ64#", 1), ("IRDY#", 1), ("TRDY#", 1), ("STOP#", 1),
    ("DEVSEL#", 1), ("ACK64#", 1), ("PAR", 1), ("PAR64", 1), ("C/BE#", 8),
    ("AD", 64)]

/-- What `run_init` does to the signals of a device. -/
def releaseSignals (signals : SignalMap String) : SignalMap String :=
  fun name =>
    match releasedSignals.lookup name with
    | some width => List.replicate width .z
    | none => signals name

theorem bits_replicate (width : Nat) (level : Logic4) :
    bits width (List.replicate width level) = some fun _ => level := by
  rw [bits, dif_pos (List.length_replicate ▸ Nat.le_refl width)]
  congr 1
  funext index
  rw [List.get_eq_getElem, List.getElem_replicate]

/-- After `run_init` a device drives none of the bidirectional signals. -/
theorem biSignalsOf_releaseSignals (signals : SignalMap String) :
    biSignalsOf (releaseSignals signals) = some BiSignals.released := by
  have cBe : releaseSignals signals "C/BE#" = List.replicate 8 .z := rfl
  have ad : releaseSignals signals "AD" = List.replicate 64 .z := rfl
  rw [biSignalsOf, cBe, ad, bits_replicate, bits_replicate]
  rfl

/-- The signals of a device that has been released. -/
def releasedClient (signals : SignalMap String) : ClientSignals where
  resetN := (signals "RESET#").head?
  reqN := (signals "REQ#").head?
  intN
    | 0 => (signals "INTA#").head?
    | 1 => (signals "INTB#").head?
    | 2 => (signals "INTC#").head?
    | 3 => (signals "INTD#").head?
  bi := BiSignals.released

theorem clientSignalsOf_releaseSignals (signals : SignalMap String) :
    clientSignalsOf (releaseSignals signals) =
      some (releasedClient signals) := by
  rw [clientSignalsOf, biSignalsOf_releaseSignals]
  rfl

/-- So the signals of all devices can be read at that time. -/
theorem allSignalsOf_releaseSignals
    {n : Nat}
    (signals : PlugSignals n) :
    allSignalsOf (fun dev => releaseSignals (signals dev)) =
      some fun dev => releasedClient (signals dev) := by
  have present : ∀ dev,
      (clientSignalsOf (releaseSignals (signals dev))).isSome := by
    intro dev
    rw [clientSignalsOf_releaseSignals]
    rfl
  rw [allSignalsOf, dif_pos present]
  simp only [clientSignalsOf_releaseSignals, Option.get_some]

end Pci

/-! ## The protocol objects -/

/-- The protocol object of a bus; three protocols have two ends. -/
inductive ProtocolObject (n : Nat) where
  | pci (bus : Pci.PciBus n) (proto : Pci.PciProtocol n)
  | pointToPoint (master slave : Fin n) (proto : P2p.PointToPoint)
  | axi4 (master slave : Fin n) (proto : Axi4.AXI4Protocol)
  | pcieTlp (master slave : Fin n) (proto : Pcie.PCIeTLP)

namespace ProtocolObject

variable {n : Nat}

/-- The signals that `run_init` overwrites, with their widths. -/
def overwritten : ProtocolObject n → List (String × Nat)
  | .pci _ _ => Pci.releasedSignals
  | .pointToPoint _ _ _ => []
  | .axi4 _ _ _ => []
  | .pcieTlp _ _ _ => []

/--
`run_init`.  The protocols with two ends assert that there are two devices and that
one of them is a host; `master` and `slave` are what they find then.
-/
def runInit
    (signals : PlugSignals n) :
    ProtocolObject n → Option (ProtocolObject n × PlugSignals n)
  | .pci bus _ =>
      let released := fun dev => Pci.releaseSignals (signals dev)
      (Pci.allSignalsOf released).map fun reported =>
        (.pci bus (Pci.PciProtocol.runInit bus reported), released)
  | .pointToPoint master slave proto =>
      some (.pointToPoint master slave proto, signals)
  | .axi4 master slave proto => some (.axi4 master slave proto, signals)
  | .pcieTlp master slave proto => some (.pcieTlp master slave proto, signals)

/--
`run_run` with the signals it finds.  There is nothing after an access outside
a vector or a failed assertion.
-/
def runRun
    (random : Nat)
    (signals : PlugSignals n) : ProtocolObject n → Option (ProtocolObject n)
  | .pci bus proto =>
      (Pci.allSignalsOf signals).bind fun reported =>
        (Pci.PciProtocol.runRun bus random
          { proto with clientSignals := reported }).toOption.map (.pci bus)
  | .pointToPoint master slave proto =>
      (proto.runRun (signals master) (signals slave)).map fun next =>
        .pointToPoint master slave next.1
  | .axi4 master slave proto =>
      (proto.runRun (signals master) (signals slave)).map fun next =>
        .axi4 master slave next.1
  | .pcieTlp master slave proto =>
      (proto.runRun (signals master) (signals slave)).map fun next =>
        .pcieTlp master slave next.1

end ProtocolObject

/-! ## Runs of a bus -/

/-- What happens to a bus that has been assembled. -/
inductive BusAction (n : Nat) where
  | ready (line : Ready n)
  | step (random : Nat)

/-- A bus that has been assembled. -/
structure RunningBus (n : Nat) where
  proto : ProtocolObject n
  clientSignals : PlugSignals n

namespace RunningBus

variable {n : Nat}

/-- The bus after its devices have sent some lines and it is assembled. -/
def assemble
    (proto : ProtocolObject n)
    (lines : List (Ready n)) : Option (RunningBus n) :=
  (proto.runInit
    (lines.foldl PlugSignals.ready fun _ => SignalMap.empty)).map
      fun (proto, signals) => { proto := proto, clientSignals := signals }

/-- One action. -/
def act (bus : RunningBus n) : BusAction n → Option (RunningBus n)
  | .ready line =>
      some { bus with clientSignals := bus.clientSignals.ready line }
  | .step random =>
      (bus.proto.runRun random bus.clientSignals).map fun proto =>
        { bus with proto := proto }

/-- Some actions, one after the other. -/
def acts : RunningBus n → List (BusAction n) → Option (RunningBus n)
  | bus, [] => some bus
  | bus, action :: rest => (bus.act action).bind fun bus => bus.acts rest

/-- The bus after it is assembled and some actions. -/
def run
    (proto : ProtocolObject n)
    (lines : List (Ready n))
    (actions : List (BusAction n)) : Option (RunningBus n) :=
  (assemble proto lines).bind fun bus => bus.acts actions

end RunningBus

/-- The lines among some actions. -/
def readyLines {n : Nat} (actions : List (BusAction n)) : List (Ready n) :=
  actions.filterMap fun
    | .ready line => some line
    | .step _ => none

section

variable {n : Nat}
variable {proto : ProtocolObject n}

/-- What the next step uses is what the devices reported last. -/
def UsesReported (lines : List (Ready n)) (bus : RunningBus n) : Prop :=
  ∀ dev name value,
    lastReported lines dev name = some value →
    bus.clientSignals dev name = value

/-- No action but a READY changes the signals of the devices. -/
theorem acts_clientSignals
    {bus later : RunningBus n}
    {actions : List (BusAction n)}
    (reached : bus.acts actions = some later) :
    later.clientSignals =
      (readyLines actions).foldl PlugSignals.ready bus.clientSignals := by
  induction actions generalizing bus with
  | nil =>
      cases reached
      rfl
  | cons action rest inductionHypothesis =>
      rw [RunningBus.acts, Option.bind_eq_some_iff] at reached
      obtain ⟨middle, didAct, didRest⟩ := reached
      rw [inductionHypothesis didRest]
      match action with
      | .ready line =>
          cases didAct
          rfl
      | .step random =>
          rw [RunningBus.act, Option.map_eq_some_iff] at didAct
          obtain ⟨proto, _, rfl⟩ := didAct
          rfl

/-- What assembling a bus leaves of what the devices have reported. -/
theorem assemble_clientSignals
    {lines : List (Ready n)}
    {bus : RunningBus n}
    (assembled : RunningBus.assemble proto lines = some bus)
    (dev : Fin n)
    (name : String) :
    bus.clientSignals dev name =
      match proto.overwritten.lookup name with
      | some width => List.replicate width .z
      | none => (lastReported lines dev name).getD [] := by
  rw [RunningBus.assemble, Option.map_eq_some_iff] at assembled
  obtain ⟨⟨proto', signals⟩, initialized, rfl⟩ := assembled
  have reported := readies_apply (fun _ => SignalMap.empty) lines dev name
  match proto with
  | .pci bus _ =>
      rw [ProtocolObject.runInit, Option.map_eq_some_iff] at initialized
      obtain ⟨_, _, same⟩ := initialized
      cases same
      change Pci.releaseSignals _ name = _
      rw [Pci.releaseSignals, reported]
      rfl
  | .pointToPoint _ _ _ =>
      cases initialized
      exact reported
  | .axi4 _ _ _ =>
      cases initialized
      exact reported
  | .pcieTlp _ _ _ =>
      cases initialized
      exact reported

/--
A step uses what the devices reported last, unless `run_init` has overwritten
a value that has not been reported again since.
-/
theorem step_usesReported_iff
    {lines : List (Ready n)}
    {actions : List (BusAction n)}
    {bus : RunningBus n}
    (reached : RunningBus.run proto lines actions = some bus) :
    UsesReported (lines ++ readyLines actions) bus ↔
      ∀ dev name width value,
        proto.overwritten.lookup name = some width →
        lastReported lines dev name = some value →
        lastReported (readyLines actions) dev name = none →
        value = List.replicate width .z := by
  rw [RunningBus.run, Option.bind_eq_some_iff] at reached
  obtain ⟨assembled, didAssemble, didAct⟩ := reached
  have used : ∀ dev name, bus.clientSignals dev name =
      (lastReported (readyLines actions) dev name).getD
        (assembled.clientSignals dev name) := by
    intro dev name
    rw [acts_clientSignals didAct]
    exact readies_apply _ _ dev name
  constructor
  · intro uses dev name width value isOverwritten before notSince
    have isUsed := uses dev name value
      (by rw [lastReported_append, notSince, before]; rfl)
    rw [used, notSince, Option.getD_none,
      assemble_clientSignals didAssemble, isOverwritten] at isUsed
    exact isUsed.symm
  · intro unchanged dev name value isLast
    rw [lastReported_append] at isLast
    rw [used]
    rcases since : lastReported (readyLines actions) dev name with _ | later
    · rw [since, Option.none_or] at isLast
      rw [Option.getD_none, assemble_clientSignals didAssemble]
      rcases isOverwritten : proto.overwritten.lookup name with _ | width
      · rw [isLast]
        rfl
      · exact (unchanged dev name width value isOverwritten isLast since).symm
    · rw [since, Option.some_or] at isLast
      cases isLast
      rfl

end

/-! ## A device that drives FRAME# early -/

/-- A PCI bus with a host. -/
def oneHost : Pci.PciBus 1 where
  hostFlag := fun _ => true
  ident := fun _ => 0
  identInjective := fun _ _ _ => Subsingleton.elim _ _
  parkMode := .none
  gntLinger := 16
  pcixcap := .zero

/-- Its protocol object. -/
def oneHostProtocol : ProtocolObject 1 :=
  .pci oneHost (Pci.PciProtocol.runInit oneHost fun _ =>
    { resetN := none
      reqN := none
      intN := fun _ => none
      bi := Pci.BiSignals.released })

/-- The host reports FRAME# with the READY that completes the bus. -/
def earlyFrame : Ready 1 where
  dev := 0
  tokens := [("FRAME#", [.one])]

/-- The bus can be assembled, and takes FRAME# as Z then. -/
theorem assemble_oneHost (lines : List (Ready 1)) :
    ∃ bus, RunningBus.assemble oneHostProtocol lines = some bus ∧
      bus.clientSignals 0 "FRAME#" = [.z] := by
  rw [RunningBus.assemble, oneHostProtocol, ProtocolObject.runInit]
  simp only
  rw [Pci.allSignalsOf_releaseSignals]
  exact ⟨_, rfl, rfl⟩

/-- The first step takes FRAME# as Z, which the host has reported as 1. -/
theorem earlyFrame_lost :
    ∃ bus, RunningBus.run oneHostProtocol [earlyFrame] [] = some bus ∧
      lastReported [earlyFrame] 0 "FRAME#" = some [.one] ∧
      bus.clientSignals 0 "FRAME#" = [.z] ∧
      ¬ UsesReported [earlyFrame] bus := by
  obtain ⟨bus, assembled, isZ⟩ := assemble_oneHost [earlyFrame]
  have reached :
      RunningBus.run oneHostProtocol [earlyFrame] [] = some bus := by
    rw [RunningBus.run, assembled]
    rfl
  refine ⟨bus, reached, rfl, isZ, fun uses => ?_⟩
  have isOne := uses 0 "FRAME#" [.one] rfl
  rw [isZ] at isOne
  revert isOne
  decide

/-- If the host reports it once more, all steps after that take it so. -/
theorem earlyFrame_again :
    ∃ bus,
      RunningBus.run oneHostProtocol [earlyFrame] [.ready earlyFrame] =
        some bus ∧
      UsesReported [earlyFrame, earlyFrame] bus := by
  obtain ⟨bus, assembled, _⟩ := assemble_oneHost [earlyFrame]
  have reached : RunningBus.run oneHostProtocol [earlyFrame]
      [.ready earlyFrame] =
        some { bus with
          clientSignals := bus.clientSignals.ready earlyFrame } := by
    rw [RunningBus.run, assembled]
    rfl
  refine ⟨_, reached, (step_usesReported_iff reached).mpr ?_⟩
  intro dev name width value _ before notSince
  change lastReported [earlyFrame] dev name = none at notSince
  rw [notSince] at before
  cases before

end Simbus
