import Simbus.Pci.Grant
import Simbus.Service.Host
import Simbus.Service.Run

/-!
# The end of a bus

When a device of a bus has exited and all others are ready or have exited too,
all devices of the bus are sent FINISH and its port is closed.  The protocol is
run once more before that, on whatever the devices have reported; AXI4 does not
bear it if a signal has never been reported, and no protocol traces a vector of
more than 1024 bits.
-/

namespace Simbus

open FourValued

/-! ## What the protocols bear -/

namespace Pci

/-- The vectors of the shared signals are long enough. -/
def Driven {n : Nat} (signals : PlugSignals n) : Prop :=
  ∀ dev, ∀ signal ∈ releasedSignals, signal.2 ≤ (signals dev signal.1).length

theorem bits_isSome
    {width : Nat}
    {vector : Vector4}
    (enough : width ≤ vector.length) :
    ∃ value, bits width vector = some value :=
  ⟨_, dif_pos enough⟩

theorem head_isSome
    {vector : Vector4}
    (enough : 1 ≤ vector.length) :
    ∃ value, vector.head? = some value := by
  cases vector with
  | nil =>
      exact absurd enough (by decide)
  | cons value _ =>
      exact ⟨value, rfl⟩

theorem clientSignalsOf_isSome
    {signals : SignalMap String}
    (driven : ∀ signal ∈ releasedSignals,
      signal.2 ≤ (signals signal.1).length) :
    (clientSignalsOf signals).isSome := by
  have head : ∀ name, (name, 1) ∈ releasedSignals →
      ∃ value, (signals name).head? = some value :=
    fun name isShared => head_isSome (driven (name, 1) isShared)
  obtain ⟨_, frameN⟩ := head "FRAME#" (by decide)
  obtain ⟨_, req64N⟩ := head "REQ64#" (by decide)
  obtain ⟨_, irdyN⟩ := head "IRDY#" (by decide)
  obtain ⟨_, trdyN⟩ := head "TRDY#" (by decide)
  obtain ⟨_, stopN⟩ := head "STOP#" (by decide)
  obtain ⟨_, devselN⟩ := head "DEVSEL#" (by decide)
  obtain ⟨_, ack64N⟩ := head "ACK64#" (by decide)
  obtain ⟨_, par⟩ := head "PAR" (by decide)
  obtain ⟨_, par64⟩ := head "PAR64" (by decide)
  obtain ⟨_, cBe⟩ := bits_isSome (driven ("C/BE#", 8) (by decide))
  obtain ⟨_, ad⟩ := bits_isSome (driven ("AD", 64) (by decide))
  simp only at cBe ad
  simp [clientSignalsOf, biSignalsOf, frameN, req64N, irdyN, trdyN, stopN,
    devselN, ack64N, par, par64, cBe, ad]

theorem driven_releaseSignals
    {n : Nat}
    (signals : PlugSignals n) :
    Driven fun dev => releaseSignals (signals dev) := by
  intro dev
  have widths : ∀ signal ∈ releasedSignals,
      releasedSignals.lookup signal.1 = some signal.2 := by
    decide
  intro signal isShared
  have released : releaseSignals (signals dev) signal.1 =
      List.replicate signal.2 .z := by
    unfold releaseSignals
    rw [widths signal isShared]
  simp only
  rw [released, List.length_replicate]

theorem allSignalsOf_of_driven
    {n : Nat}
    {signals : PlugSignals n}
    (driven : Driven signals) :
    ∃ reported, allSignalsOf signals = some reported :=
  ⟨_, dif_pos fun dev => clientSignalsOf_isSome (driven dev)⟩

end Pci

namespace ProtocolObject

variable {n : Nat}
variable {proto : ProtocolObject n}
variable {signals : PlugSignals n}

/-- Every signal of the two ends has been reported with its width. -/
def Complete
    (widths : Axi4.Widths)
    (master slave : SignalMap String) : Prop :=
  (∀ signal : Axi4.MasterSignal,
    (master signal.name).length = Axi4.masterBits widths signal) ∧
    ∀ signal : Axi4.SlaveSignal, signal ≠ .irq ∨ 0 < widths.irqWidth →
      (slave signal.name).length = Axi4.slaveBits widths signal

/--
What a protocol needs of the signals when it is run: AXI4 all of them, and PCI
nothing if it is only initialized then.  The vectors must not be too wide for
the trace.
-/
def Bears (fresh : Bool) (signals : PlugSignals n) : ProtocolObject n → Prop
  | .pci bus _ => 0 < bus.gntLinger ∧ (fresh = true ∨ Pci.Driven signals)
  | .pointToPoint _ _ proto => proto.CanTrace
  | .axi4 master slave proto =>
      Axi4.CanTrace proto.widths ∧
        Complete proto.widths (signals master) (signals slave)
  | .pcieTlp master slave _ =>
      Pcie.PCIeTLP.CanTrace (signals master) (signals slave)

instance (fresh : Bool) (signals : PlugSignals n) :
    (proto : ProtocolObject n) → Decidable (proto.Bears fresh signals)
  | .pci _ _ => inferInstanceAs
      (Decidable (_ ∧ (_ ∨ ∀ _, ∀ _ ∈ Pci.releasedSignals, _)))
  | .pointToPoint _ _ proto => inferInstanceAs (Decidable proto.CanTrace)
  | .axi4 _ _ _ => inferInstanceAs (Decidable (_ ∧ _ ∧ _))
  | .pcieTlp _ _ _ => inferInstanceAs (Decidable (Pcie.PCIeTLP.CanTrace _ _))

/-- What holds of a protocol from its initialization on. -/
def Sound : ProtocolObject n → Prop
  | .pci bus proto => Pci.PciProtocol.Attached bus proto
  | _ => True

/-- The initialization succeeds, and the protocol can be run after it. -/
theorem runInit_spec
    (bears : proto.Bears true signals) :
    ∃ (proto' : ProtocolObject n) (change : SignalMap String → SignalMap String),
      proto.runInit signals = some (proto', fun dev => change (signals dev)) ∧
        proto'.Sound ∧ proto'.Bears false fun dev => change (signals dev) := by
  cases proto with
  | pci bus proto =>
      have initialized : runInit signals (.pci bus proto) =
          some (.pci bus (Pci.PciProtocol.runInit bus fun dev =>
            Pci.releasedClient (signals dev)),
            fun dev => Pci.releaseSignals (signals dev)) := by
        rw [runInit, Pci.allSignalsOf_releaseSignals]
        rfl
      exact ⟨_, _, initialized, (Pci.runInit_grantInvariant bus _).attached,
        bears.1, .inr (Pci.driven_releaseSignals signals)⟩
  | pointToPoint master slave proto =>
      exact ⟨_, id, rfl, trivial, bears⟩
  | axi4 master slave proto =>
      exact ⟨_, id, rfl, trivial, bears⟩
  | pcieTlp master slave proto =>
      exact ⟨_, id, rfl, trivial, bears⟩

/-- The protocol can be run. -/
theorem runRun_spec
    (bears : proto.Bears false signals)
    (sound : proto.Sound)
    (random : Nat) :
    ∃ proto', proto.runRun random signals = some proto' ∧ proto'.Sound := by
  cases proto with
  | pci bus proto =>
      obtain ⟨lingers, driven⟩ := bears
      obtain ⟨reported, isReported⟩ := Pci.allSignalsOf_of_driven
        (driven.resolve_left Bool.false_ne_true)
      have attached : Pci.PciProtocol.Attached bus
          { proto with clientSignals := reported } := sound
      rcases Pci.PciProtocol.runRun_spec attached random with
        ⟨proto', success, round⟩ | ⟨zero, _⟩
      · refine ⟨.pci bus proto', ?_, round.attached attached⟩
        rw [runRun, isReported, Option.bind_some, success]
        rfl
      · exact absurd zero lingers.ne'
  | pointToPoint master slave proto =>
      rw [runRun, P2p.PointToPoint.runRun_of_canTrace bears]
      exact ⟨.pointToPoint master slave _, rfl, trivial⟩
  | axi4 master slave proto =>
      obtain ⟨canTrace, complete⟩ := bears
      have checked : Axi4.CanTrace proto.widths ∧
          (∀ signal, (Axi4.AXI4Protocol.masterTexts (signals master)
          signal).length = Axi4.masterBits proto.widths signal) ∧
          ∀ signal, signal ≠ .irq ∨ 0 < proto.widths.irqWidth →
            (Axi4.AXI4Protocol.slaveTexts (signals slave) signal).length =
              Axi4.slaveBits proto.widths signal := by
        refine ⟨canTrace, fun signal => ?_, fun signal counts => ?_⟩
        · exact (List.length_reverse).trans (complete.1 signal)
        · exact (List.length_reverse).trans (complete.2 signal counts)
      rw [runRun, Axi4.AXI4Protocol.runRun, Axi4.runRun]
      simp only
      rw [if_pos checked]
      exact ⟨.axi4 master slave _, rfl, trivial⟩
  | pcieTlp master slave proto =>
      have traces : Pcie.PCIeTLP.CanTrace (signals master) (signals slave) :=
        bears
      rw [runRun, Pcie.PCIeTLP.runRun, if_pos traces]
      exact ⟨.pcieTlp master slave _, rfl, trivial⟩

end ProtocolObject

namespace Service

/-! ## The flags of a bus -/

/-- What holds of a bus between two reads. -/
structure FlagInvariant (devices : List String) (bus : BusState) : Prop where
  connected : ∀ dev, (bus.deviceMap dev).readyFlag = true ∨
    (bus.deviceMap dev).exitedFlag = true → (bus.deviceMap dev).fd.isSome = true
  /-- On an open bus the devices that have exited are ready. -/
  opened : bus.listening = true → ∀ dev ∈ devices,
    (bus.deviceMap dev).exitedFlag = true → (bus.deviceMap dev).readyFlag = true
  closed : bus.listening = false → devices ≠ [] ∧ ∀ dev ∈ devices,
    (bus.deviceMap dev).exitedFlag = true ∧
      (bus.deviceMap dev).readyFlag = false
  finished : bus.finished = true → devices ≠ []

variable {devices : List String}
variable {bus : BusState}
variable {dev : String}

theorem FlagInvariant.setPlug
    (invariant : FlagInvariant devices bus)
    {plug : BusDevicePlug}
    (listening : bus.listening = true)
    (connected : plug.fd.isSome = true)
    (exitedReady : plug.exitedFlag = true → plug.readyFlag = true) :
    FlagInvariant devices (bus.setPlug dev plug) where
  connected := by
    intro other flagged
    by_cases same : other = dev
    · subst same
      rw [BusState.setPlug_self]
      exact connected
    · rw [BusState.setPlug_other bus plug same] at flagged ⊢
      exact invariant.connected other flagged
  opened := by
    intro _ other isDevice exited
    by_cases same : other = dev
    · subst same
      rw [BusState.setPlug_self] at exited ⊢
      exact exitedReady exited
    · rw [BusState.setPlug_other bus plug same] at exited ⊢
      exact invariant.opened listening other isDevice exited
  closed := by
    intro notListening
    exact absurd (listening.symm.trans notListening) (by decide)
  finished := invariant.finished

theorem FlagInvariant.record
    (invariant : FlagInvariant devices bus)
    (event : Event) :
    FlagInvariant devices (bus.record event) :=
  ⟨invariant.connected, invariant.opened, invariant.closed, invariant.finished⟩

/-- A HELLO for a device that has not been attached. -/
theorem FlagInvariant.attach
    (invariant : FlagInvariant devices bus)
    (isDevice : dev ∈ devices)
    (unattached : (bus.deviceMap dev).fd = none)
    (fd : Nat) :
    FlagInvariant devices (attach fd dev bus) := by
  have notExited : (bus.deviceMap dev).exitedFlag ≠ true := by
    intro exited
    have connected := invariant.connected dev (.inr exited)
    rw [unattached] at connected
    cases connected
  have listening : bus.listening = true := by
    by_contra closed
    rw [Bool.not_eq_true] at closed
    exact notExited ((invariant.closed closed).2 dev isDevice).1
  refine FlagInvariant.record ?_ _
  exact invariant.setPlug listening rfl fun exited => absurd exited notExited

theorem FlagInvariant.markReady
    (invariant : FlagInvariant devices bus)
    (listening : bus.listening = true)
    (connected : (bus.deviceMap dev).fd.isSome = true) :
    FlagInvariant devices (markReady dev bus) := by
  refine FlagInvariant.record ?_ _
  exact invariant.setPlug listening connected fun _ => rfl

theorem FlagInvariant.markExited
    (invariant : FlagInvariant devices bus)
    (listening : bus.listening = true)
    (connected : (bus.deviceMap dev).fd.isSome = true) :
    FlagInvariant devices (markExited dev bus) :=
  invariant.setPlug listening connected fun _ => rfl

theorem FlagInvariant.scan
    (invariant : FlagInvariant devices bus) :
    FlagInvariant devices (scanDevices devices bus).2 := by
  obtain ⟨finished, shape, origin⟩ := scanDevices_shape devices bus
  rw [shape]
  exact
    { connected := invariant.connected
      opened := invariant.opened
      closed := invariant.closed
      finished := fun isFinished =>
        (origin isFinished).elim invariant.finished id }

/-- The scan passes if all devices are ready, and sees if one has exited. -/
theorem scanDevices_of_ready
    (allReady : ∀ dev ∈ devices, (bus.deviceMap dev).readyFlag = true) :
    (scanDevices devices bus).1 = true ∧
      ((∃ dev ∈ devices, (bus.deviceMap dev).exitedFlag = true) →
        (scanDevices devices bus).2.finished = true) := by
  have passes : (scanDevices devices bus).1 = true := by
    induction devices generalizing bus with
    | nil =>
        rfl
    | cons first rest inductionHypothesis =>
        rw [List.forall_mem_cons] at allReady
        rw [scanDevices, if_pos allReady.1]
        apply inductionHypothesis
        intro dev isDevice
        split <;> exact allReady.2 dev isDevice
  refine ⟨passes, ?_⟩
  rintro ⟨dev, isDevice, exited⟩
  by_contra notFinished
  rw [Bool.not_eq_true] at notFinished
  have notExited := (scanDevices_passes passes).2.1 notFinished dev isDevice
  exact absurd (exited.symm.trans notExited) (by decide)

theorem FlagInvariant.initializeBus
    (invariant : FlagInvariant devices bus) :
    FlagInvariant devices (initializeBus devices bus) := by
  unfold Service.initializeBus
  split
  · simp only
    split
    · exact (FlagInvariant.mk invariant.scan.connected invariant.scan.opened
        invariant.scan.closed invariant.scan.finished : FlagInvariant devices
          { (scanDevices devices bus).2 with needInitialization := false }).record _
    · exact invariant.scan
  · exact invariant

theorem FlagInvariant.checkBus
    (invariant : FlagInvariant devices bus) :
    FlagInvariant devices (checkBus devices bus) := by
  unfold Service.checkBus
  split
  · exact invariant
  · exact invariant.scan

/-- A bus is run with all its devices ready, and without an exit or finished. -/
theorem FlagInvariant.busReady
    (invariant : FlagInvariant devices bus)
    (allReady : ∀ dev ∈ devices, (bus.deviceMap dev).readyFlag = true)
    (exits : bus.finished = false →
      ∀ dev ∈ devices, (bus.deviceMap dev).exitedFlag = false) :
    FlagInvariant devices (busReady devices bus) := by
  have cleared : ∀ dev ∈ devices, (clearReady devices bus).deviceMap dev =
      { bus.deviceMap dev with readyFlag := false } := fun _ => clearReady_plug
  have others : ∀ dev, dev ∉ devices →
      (clearReady devices bus).deviceMap dev = bus.deviceMap dev :=
    fun _ other => if_neg other
  have attached : ∀ dev ∈ devices, (bus.deviceMap dev).fd.isSome = true :=
    fun dev isDevice => invariant.connected dev (.inl (allReady dev isDevice))
  unfold Service.busReady
  simp only
  split
  · rename_i isFinished
    have closedPlug : ∀ dev ∈ devices,
        (closeBus devices (clearReady devices bus)).deviceMap dev =
          { bus.deviceMap dev with readyFlag := false, exitedFlag := true } := by
      intro dev isDevice
      rw [closeBus]
      simp only
      rw [if_pos isDevice, cleared dev isDevice]
    have otherPlug : ∀ dev, dev ∉ devices →
        (closeBus devices (clearReady devices bus)).deviceMap dev =
          bus.deviceMap dev := by
      intro dev other
      rw [closeBus]
      simp only
      rw [if_neg other, others dev other]
    suffices closed : FlagInvariant devices
        (closeBus devices (clearReady devices bus)) from closed.record _
    refine ⟨?_, fun isOpen => Bool.noConfusion isOpen, ?_, invariant.finished⟩
    · intro dev flagged
      by_cases isDevice : dev ∈ devices
      · rw [closedPlug dev isDevice]
        exact attached dev isDevice
      · rw [otherPlug dev isDevice] at flagged ⊢
        exact invariant.connected dev flagged
    · intro _
      refine ⟨invariant.finished isFinished, fun dev isDevice => ?_⟩
      rw [closedPlug dev isDevice]
      exact ⟨rfl, rfl⟩
  · rename_i goesOn
    have notExited := exits (Bool.eq_false_iff.mpr goesOn)
    suffices stays : FlagInvariant devices (clearReady devices bus) from
      stays.record _
    refine ⟨?_, ?_, ?_, invariant.finished⟩
    · intro dev flagged
      by_cases isDevice : dev ∈ devices
      · rw [cleared dev isDevice]
        exact attached dev isDevice
      · rw [others dev isDevice] at flagged ⊢
        exact invariant.connected dev flagged
    · intro _ dev isDevice exited
      rw [cleared dev isDevice] at exited
      exact absurd (exited.symm.trans (notExited dev isDevice)) (by decide)
    · intro notListening
      obtain ⟨some_, closed⟩ := invariant.closed notListening
      obtain ⟨dev, isDevice⟩ := List.exists_mem_of_ne_nil devices some_
      exact absurd ((closed dev isDevice).2.symm.trans (allReady dev isDevice))
        (by decide)

/-! ## The turn of a bus -/

/-- All devices of a bus are ready. -/
def BusAllReady (devices : List String) (bus : BusState) : Prop :=
  ∀ dev ∈ devices, (bus.deviceMap dev).readyFlag = true

/-- All devices are sent FINISH, and the port is closed. -/
structure Finished (devices : List String) (before after : BusState) : Prop where
  sent : ∃ earlier sent, before.history <+: earlier ∧
    after.history = earlier ++ [.finish sent] ∧
    sent.map Prod.fst = devices ∧ ∀ entry ∈ sent, entry.2.isSome = true
  closed : after.listening = false

/-- What an initialization leaves alone. -/
theorem initializeBus_frame
    (devices : List String)
    (bus : BusState) :
    (initializeBus devices bus).deviceMap = bus.deviceMap ∧
      bus.history <+: (initializeBus devices bus).history := by
  obtain ⟨finished, shape, _⟩ := scanDevices_shape devices bus
  unfold initializeBus
  simp only
  rw [shape]
  split
  · split
    · exact ⟨rfl, List.prefix_append _ _⟩
    · exact ⟨rfl, List.prefix_refl _⟩
  · exact ⟨rfl, List.prefix_refl _⟩

theorem checkBus_frame
    (devices : List String)
    (bus : BusState) :
    (checkBus devices bus).deviceMap = bus.deviceMap ∧
      (checkBus devices bus).history = bus.history := by
  obtain ⟨finished, shape, _⟩ := scanDevices_shape devices bus
  unfold checkBus
  rw [shape]
  split <;> exact ⟨rfl, rfl⟩

theorem initializeBus_of_needs
    (needs : bus.needInitialization = true)
    (passes : (scanDevices devices bus).1 = true) :
    (initializeBus devices bus).needInitialization = false := by
  unfold initializeBus
  rw [if_pos needs]
  simp only
  rw [if_pos passes]
  rfl

theorem initializeBus_of_waits
    (needs : bus.needInitialization = true)
    (waits : ¬ (scanDevices devices bus).1 = true) :
    (initializeBus devices bus).needInitialization = true := by
  obtain ⟨finished, shape, _⟩ := scanDevices_shape devices bus
  unfold initializeBus
  rw [if_pos needs]
  simp only
  rw [if_neg waits, shape]
  exact needs

theorem initializeBus_of_started
    (started : bus.needInitialization = false) :
    initializeBus devices bus = bus := by
  unfold initializeBus
  rw [started]
  rfl

/-- What is known of a bus in the run list when it is run. -/
theorem canRun_spec
    (runs : canRun devices bus = true) :
    BusAllReady devices (checkBus devices bus) ∧
      ((checkBus devices bus).finished = false →
        ∀ dev ∈ devices,
          ((checkBus devices bus).deviceMap dev).exitedFlag = false) ∧
      ((∃ dev ∈ devices, (bus.deviceMap dev).exitedFlag = true) →
        (checkBus devices bus).finished = true) := by
  rw [canRun, Bool.and_eq_true, Bool.not_eq_true'] at runs
  obtain ⟨initialized, passes⟩ := runs
  obtain ⟨allReady, notExited, _⟩ := scanDevices_passes passes
  have isScan : checkBus devices bus = (scanDevices devices bus).2 := by
    unfold checkBus
    rw [initialized]
    rfl
  have same := (checkBus_frame devices bus).1
  refine ⟨?_, ?_, ?_⟩
  · unfold BusAllReady
    rw [same]
    exact allReady
  · rw [same, isScan]
    exact notExited
  · rw [isScan]
    exact (scanDevices_of_ready allReady).2

/-- What holds of a bus between two turns. -/
structure SideInvariant (side : BusSide devices.length) : Prop where
  flags : FlagInvariant devices side.bus
  sound : side.bus.needInitialization = false → side.proto.Sound
  quiet : side.sigpipe = false

/-- If a bus is to be run, its protocol bears the signals. -/
def BusSide.Bears (side : BusSide devices.length) : Prop :=
  BusAllReady devices side.bus →
    side.proto.Bears side.bus.needInitialization side.reported

instance (side : BusSide devices.length) : Decidable side.Bears :=
  inferInstanceAs (Decidable ((∀ _ ∈ _, _) → _))

/-- The end of a turn for one bus. -/
def BusSide.turn
    (random : Nat)
    (writes : String → Bool)
    (side : BusSide devices.length) : Option (BusSide devices.length) :=
  side.assemble.bind fun assembled =>
    let checked := assembled.onBus (checkBus devices)
    if canRun devices assembled.bus then
      checked.busReady random writes
    else
      some checked

section

variable {side : BusSide devices.length}

theorem reported_store
    (change : SignalMap String → SignalMap String) :
    (side.store fun dev => change (side.reported dev)).reported =
      fun dev => change (side.reported dev) := by
  funext dev
  have known : devices.idxOf (devices.get dev) < devices.length :=
    List.idxOf_lt_length_of_mem (List.get_mem devices dev)
  have found : devices.get ⟨devices.idxOf (devices.get dev), known⟩ =
      devices.get dev := List.idxOf_get known
  rw [BusSide.reported, BusSide.store]
  simp only
  rw [dif_pos known, BusSide.reported, found, BusSide.reported]

/-- The initialization of a bus, after which its protocol can be run. -/
theorem assemble_spec
    (invariant : SideInvariant side)
    (bears : side.Bears) :
    ∃ assembled, side.assemble = some assembled ∧
      assembled.bus = initializeBus devices side.bus ∧
      SideInvariant assembled ∧
      (canRun devices assembled.bus = true →
        assembled.proto.Bears false assembled.reported) := by
  have flags := invariant.flags.initializeBus
  unfold BusSide.assemble
  simp only
  by_cases needs : side.bus.needInitialization = true
  · by_cases passes : (scanDevices devices side.bus).1 = true
    · have borne := bears (scanDevices_passes passes).1
      rw [needs] at borne
      obtain ⟨proto, change, initialized, sound, bearsNow⟩ :=
        ProtocolObject.runInit_spec borne
      rw [needs, passes, initialized]
      refine ⟨_, rfl, rfl, ⟨flags, fun _ => sound, invariant.quiet⟩, ?_⟩
      intro _
      have same := @reported_store devices side change
      change proto.Bears false
        (side.store fun dev => change (side.reported dev)).reported
      rw [same]
      exact bearsNow
    · rw [needs, Bool.eq_false_iff.mpr passes]
      refine ⟨_, rfl, rfl, ⟨flags, ?_, invariant.quiet⟩, ?_⟩
      · intro started
        exact absurd ((initializeBus_of_waits needs passes).symm.trans started)
          (by decide)
      · intro runs
        rw [canRun, Bool.and_eq_true, Bool.not_eq_true'] at runs
        exact absurd ((initializeBus_of_waits needs passes).symm.trans runs.1)
          (by decide)
  · rw [Bool.not_eq_true] at needs
    rw [needs, Bool.false_and]
    refine ⟨_, rfl, rfl, ⟨flags, fun _ => invariant.sound needs,
      invariant.quiet⟩, ?_⟩
    intro runs
    have same : (side.onBus (initializeBus devices)).bus = side.bus :=
      initializeBus_of_started needs
    rw [same, canRun, Bool.and_eq_true] at runs
    have borne := bears (scanDevices_passes runs.2).1
    rw [needs] at borne
    exact borne

/-- A bus in the run list is run. -/
theorem busReady_spec
    {random : Nat}
    {writes : String → Bool}
    (invariant : SideInvariant side)
    (sound : side.proto.Sound)
    (bears : side.proto.Bears false side.reported)
    (written : ∀ dev, writes dev = true)
    (allReady : BusAllReady devices side.bus)
    (exits : side.bus.finished = false →
      ∀ dev ∈ devices, (side.bus.deviceMap dev).exitedFlag = false) :
    ∃ ran, side.busReady random writes = some ran ∧
      ran.bus = Service.busReady devices side.bus ∧ SideInvariant ran := by
  have flags := invariant.flags.busReady allReady exits
  obtain ⟨proto, ran, sound'⟩ := ProtocolObject.runRun_spec bears sound random
  have all : devices.all writes = true :=
    List.all_eq_true.mpr fun dev _ => written dev
  unfold BusSide.busReady
  rw [ran, all]
  simp only [Option.bind_some, Bool.not_true, Bool.or_false, if_true]
  split
  · exact ⟨_, rfl, rfl, flags, fun _ => sound', invariant.quiet⟩
  · exact ⟨_, rfl, rfl, flags, fun _ => sound', invariant.quiet⟩

/-- What the end of a turn does to a bus that its protocol bears. -/
structure Turned
    (before after : BusSide devices.length) : Prop where
  invariant : SideInvariant after
  connections : ∀ dev,
    (after.bus.deviceMap dev).fd = (before.bus.deviceMap dev).fd
  finish : before.bus.listening = true → BusAllReady devices before.bus →
    (∃ dev ∈ devices, (before.bus.deviceMap dev).exitedFlag = true) →
    Finished devices before.bus after.bus

theorem turn_spec
    {random : Nat}
    {writes : String → Bool}
    (invariant : SideInvariant side)
    (bears : side.Bears)
    (written : ∀ dev, writes dev = true) :
    ∃ after, side.turn random writes = some after ∧ Turned side after := by
  obtain ⟨assembled, isAssembled, sameBus, kept, bearsNow⟩ :=
    assemble_spec invariant bears
  have checkedInvariant :
      SideInvariant (assembled.onBus (checkBus devices)) :=
    ⟨kept.flags.checkBus, fun started => kept.sound (by
      have same : (checkBus devices assembled.bus).needInitialization =
          assembled.bus.needInitialization := by
        obtain ⟨finished, shape, _⟩ := scanDevices_shape devices assembled.bus
        unfold checkBus
        rw [shape]
        split <;> rfl
      exact same.symm.trans started), kept.quiet⟩
  have sameMap : (checkBus devices assembled.bus).deviceMap =
      side.bus.deviceMap := by
    rw [(checkBus_frame devices assembled.bus).1, sameBus]
    exact (initializeBus_frame devices side.bus).1
  rw [BusSide.turn, isAssembled, Option.bind_some]
  simp only
  split
  · rename_i runs
    obtain ⟨allReady, exits, finished⟩ := canRun_spec runs
    have started : assembled.bus.needInitialization = false := by
      rw [canRun, Bool.and_eq_true, Bool.not_eq_true'] at runs
      exact runs.1
    obtain ⟨after, ran, isRun, keptOn⟩ :=
      @busReady_spec devices (assembled.onBus (checkBus devices)) random writes
        checkedInvariant (kept.sound started) (bearsNow runs) written allReady
        exits
    have connections : ∀ dev,
        (after.bus.deviceMap dev).fd = (side.bus.deviceMap dev).fd := by
      intro dev
      rw [isRun, busReady_fd, ← sameMap]
      rfl
    refine ⟨after, ran, keptOn, connections, fun _ _ someExited => ?_⟩
    rw [← (initializeBus_frame devices side.bus).1, ← sameBus] at someExited
    have isFinished := finished someExited
    have history : side.bus.history <+: (checkBus devices assembled.bus).history := by
      rw [(checkBus_frame devices assembled.bus).2, sameBus]
      exact (initializeBus_frame devices side.bus).2
    have finishes : after.bus =
        (closeBus devices (clearReady devices
          (checkBus devices assembled.bus))).record
          (.finish (recipients devices (clearReady devices
            (checkBus devices assembled.bus)))) := by
      rw [isRun]
      exact if_pos isFinished
    rw [finishes]
    refine ⟨⟨_, _, history, rfl, recipients_devices _ _, ?_⟩, rfl⟩
    intro entry isSent
    obtain ⟨dev, isDevice, rfl⟩ := List.mem_map.mp isSent
    rw [clearReady_plug isDevice]
    exact checkedInvariant.flags.connected dev (.inl (allReady dev isDevice))
  · rename_i waits
    refine ⟨_, rfl, checkedInvariant,
      fun dev => congrArg (fun plugs => (plugs dev).fd) sameMap,
      fun _ allReady _ => ?_⟩
    exfalso
    apply waits
    rw [sameBus, canRun, Bool.and_eq_true, Bool.not_eq_true']
    have passes := (scanDevices_of_ready allReady).1
    have stillReady : BusAllReady devices (initializeBus devices side.bus) := by
      unfold BusAllReady
      rw [(initializeBus_frame devices side.bus).1]
      exact allReady
    refine ⟨?_, (scanDevices_of_ready stillReady).1⟩
    by_cases needs : side.bus.needInitialization = true
    · exact initializeBus_of_needs needs passes
    · rw [Bool.not_eq_true] at needs
      rw [initializeBus_of_started needs, needs]

end

/-! ## The turn of all buses -/

section

variable {config : Config}
variable {host after : Host config}
variable {input : HostInput}

theorem mem_runList
    {peekTime : String → Nat}
    {port : String} :
    port ∈ host.runList peekTime ↔
      port ∈ config.ports ∧
        canRun (config.devices port) (host.sides port).bus = true := by
  rw [Host.runList, List.mem_insertionSort, List.mem_filter]

theorem runList_nodup
    (host : Host config)
    (peekTime : String → Nat) :
    (host.runList peekTime).Nodup := by
  rw [Host.runList, (List.perm_insertionSort _ _).nodup_iff]
  exact config.portsDistinct.filter _

/-- A turn is the turn of every bus on its own. -/
theorem finishTurn_eq_some_iff :
    host.finishTurn input = some after ↔
      after.clientMap = host.clientMap ∧
        ∀ port, if port ∈ config.ports then
          (host.sides port).turn (input.random port) (input.writes port) =
            some (after.sides port)
        else
          after.sides port = host.sides port := by
  have runs : ∀ (initialized : (port : String) →
      BusSide (config.devices port).length) (port : String),
      port ∈ Host.runList { host with sides := initialized } input.peekTime ↔
        port ∈ config.ports ∧
          canRun (config.devices port) (initialized port).bus = true :=
    fun _ _ => mem_runList
  have distinct : ∀ initialized : (port : String) →
      BusSide (config.devices port).length,
      (Host.runList { host with sides := initialized } input.peekTime).Nodup :=
    fun initialized => runList_nodup { host with sides := initialized } _
  constructor
  · intro ran
    simp only [Host.finishTurn, Option.bind_eq_bind, Option.bind_eq_some_iff,
      Option.pure_def, Option.some.injEq] at ran
    obtain ⟨initialized, isInitialized, checked, isChecked, sides, isRun, rfl⟩ :=
      ran
    rw [Pointwise.changeAll_eq_some_iff config.portsDistinct] at isInitialized
    rw [Pointwise.changeAll_eq_some_iff config.portsDistinct] at isChecked
    rw [Pointwise.changeAll_eq_some_iff (distinct initialized)] at isRun
    refine ⟨rfl, fun port => ?_⟩
    have first := isInitialized port
    have second := isChecked port
    have third := isRun port
    split at first
    · rename_i isPort
      rw [if_pos isPort] at second ⊢
      simp only [runs, isPort, true_and] at third
      rw [BusSide.turn, first, Option.bind_some]
      simp only
      rw [Option.some.inj second]
      split at third
      · rename_i now
        rw [if_pos now]
        exact third
      · rename_i waits
        rw [if_neg waits, third]
    · rename_i notPort
      rw [if_neg notPort] at second ⊢
      simp only [runs, notPort, false_and, if_false] at third
      exact third.trans (second.trans first)
  · rintro ⟨sameClients, each⟩
    have canAssemble : ∀ port ∈ config.ports,
        ∃ assembled, (host.sides port).assemble = some assembled := by
      intro port isPort
      have turned := each port
      rw [if_pos isPort, BusSide.turn, Option.bind_eq_some_iff] at turned
      obtain ⟨assembled, isAssembled, _⟩ := turned
      exact ⟨assembled, isAssembled⟩
    obtain ⟨initialized, isInitialized⟩ :=
      Pointwise.exists_changeAll config.portsDistinct canAssemble
    have canCheck : ∀ port ∈ config.ports, ∃ checked,
        some ((initialized port).onBus (checkBus (config.devices port))) =
          some checked := fun _ _ => ⟨_, rfl⟩
    obtain ⟨checked, isChecked⟩ := @Pointwise.exists_changeAll _ _
      (fun port => BusSide (config.devices port).length)
      (fun port side => some (side.onBus (checkBus (config.devices port)))) _ _
      config.portsDistinct canCheck
    have isRun : Pointwise.changeAll
        (fun port side => side.busReady (input.random port) (input.writes port))
        (Host.runList { host with sides := initialized } input.peekTime)
        checked = some after.sides := by
      rw [Pointwise.changeAll_eq_some_iff (distinct initialized)]
      rw [Pointwise.changeAll_eq_some_iff config.portsDistinct] at isInitialized
      rw [Pointwise.changeAll_eq_some_iff config.portsDistinct] at isChecked
      intro port
      have first := isInitialized port
      have second := isChecked port
      have turned := each port
      split at turned
      · rename_i isPort
        rw [if_pos isPort] at first second
        rw [BusSide.turn, first, Option.bind_some] at turned
        simp only at turned
        rw [Option.some.inj second] at turned
        simp only [runs, isPort, true_and]
        split at turned
        · rename_i now
          rw [if_pos now]
          exact turned
        · rename_i waits
          rw [if_neg waits]
          exact (Option.some.inj turned).symm
      · rename_i notPort
        rw [if_neg notPort] at first second
        simp only [runs, notPort, false_and, if_false]
        exact turned.trans (second.trans first).symm
    simp only [Host.finishTurn, isInitialized, isChecked, isRun,
      Option.bind_eq_bind, Option.bind_some, Option.pure_def]
    rw [← sameClients]

end

/-! ## Reads -/

section

variable {config : Config}
variable {host : Host config}

/-- What holds of the server between two turns. -/
structure HostInvariant (host : Host config) : Prop where
  sides : ∀ port, SideInvariant (host.sides port)
  buffers : ∀ fd client, host.clientMap fd = some client → client.buffer = []
  named : ∀ fd client, host.clientMap fd = some client →
    ∀ dev, client.devName = some dev →
    dev ∈ config.devices client.bus ∧
      (host.plug client.bus dev).fd.isSome = true

/-- What holds while the clients are read: those with a name have an open bus. -/
structure Hearing (isSet : Nat → Bool) (host : Host config) : Prop where
  invariant : HostInvariant host
  opened : ∀ fd, isSet fd = true → ∀ client, host.clientMap fd = some client →
    ∀ dev, client.devName = some dev →
    (host.sides client.bus).bus.listening = true

/-- The device of a HELLO. -/
def greeted : Command → Option String
  | .hello name _ => some name
  | _ => none

/--
A read completes at most one line, and it is not the end of the stream before the
HELLO.  A HELLO is for a device that has not been attached.
-/
def GoodRead (host : Host config) (client : HostClient) : CommandRead → Prop
  | .eof => client.devName.isSome = true
  | .commands arrived =>
      (client.buffer ++ arrived).length ≤ 1 ∧
        (client.devName = none → ∀ command ∈ arrived, ∀ name ∈ greeted command,
          name ∈ config.devices client.bus →
            (host.plug client.bus name).fd = none)

instance (host : Host config) (client : HostClient) :
    (result : CommandRead) → Decidable (GoodRead host client result)
  | .eof => inferInstanceAs (Decidable (_ = _))
  | .commands _ => inferInstanceAs (Decidable (_ ∧ _))

/-- All reads of a turn are so. -/
def GoodReads
    (writes : String → String → Bool)
    (isSet : Nat → Bool) :
    List (Nat × CommandRead) → Host config → Prop
  | [], _ => True
  | (fd, result) :: rest, host =>
      match host.clientMap fd with
      | none => GoodReads writes isSet rest host
      | some client =>
          if isSet fd then
            GoodRead host client result ∧
              ∀ next ∈ host.read writes fd client result,
                GoodReads writes isSet rest next
          else
            GoodReads writes isSet rest host

instance decidableGoodReads
    (writes : String → String → Bool)
    (isSet : Nat → Bool) :
    (reads : List (Nat × CommandRead)) → (host : Host config) →
      Decidable (GoodReads writes isSet reads host)
  | [], _ => inferInstanceAs (Decidable True)
  | (fd, result) :: rest, host =>
      have later := decidableGoodReads writes isSet rest
      match isClient : host.clientMap fd with
      | none => decidable_of_iff (GoodReads writes isSet rest host) (by
          rw [GoodReads, isClient])
      | some client =>
          decidable_of_iff
            (if isSet fd then
              GoodRead host client result ∧
                ∀ next ∈ host.read writes fd client result,
                  GoodReads writes isSet rest next
            else
              GoodReads writes isSet rest host) (by
          rw [GoodReads, isClient])

variable {isSet : Nat → Bool}
variable {fd : Nat}
variable {client : HostClient}
variable {port : String}

theorem Host.updateSide_self
    (host : Host config)
    (port : String)
    (change : BusSide (config.devices port).length →
      BusSide (config.devices port).length) :
    (host.updateSide port change).sides port = change (host.sides port) :=
  Function.update_self ..

theorem Host.updateSide_other
    (host : Host config)
    {port other : String}
    (change : BusSide (config.devices port).length →
      BusSide (config.devices port).length)
    (apart : other ≠ port) :
    (host.updateSide port change).sides other = host.sides other :=
  Function.update_of_ne apart ..

/-- A change of an open bus that keeps its connections. -/
theorem Hearing.updateSide
    (hearing : Hearing isSet host)
    {change : BusSide (config.devices port).length →
      BusSide (config.devices port).length}
    (kept : SideInvariant (change (host.sides port)))
    (listening : (change (host.sides port)).bus.listening =
      (host.sides port).bus.listening)
    (connected : ∀ dev, (host.plug port dev).fd.isSome = true →
      ((change (host.sides port)).bus.deviceMap dev).fd.isSome = true) :
    Hearing isSet (host.updateSide port change) where
  invariant :=
    { sides := by
        intro other
        by_cases same : other = port
        · subst same
          rw [host.updateSide_self]
          exact kept
        · rw [host.updateSide_other change same]
          exact hearing.invariant.sides other
      buffers := hearing.invariant.buffers
      named := by
        intro fd client isClient dev isNamed
        obtain ⟨isDevice, isConnected⟩ :=
          hearing.invariant.named fd client isClient dev isNamed
        refine ⟨isDevice, ?_⟩
        rw [Host.plug]
        by_cases same : client.bus = port
        · rw [same, host.updateSide_self]
          rw [same] at isConnected
          exact connected dev isConnected
        · rw [host.updateSide_other change same]
          exact isConnected }
  opened := by
    intro fd set client isClient dev isNamed
    have before := hearing.opened fd set client isClient dev isNamed
    by_cases same : client.bus = port
    · rw [same, host.updateSide_self, listening]
      rw [same] at before
      exact before
    · rw [host.updateSide_other change same]
      exact before

theorem Host.setClient_cases
    {other : Nat}
    {otherClient : HostClient}
    (isClient : (host.setClient fd client).clientMap other = some otherClient) :
    otherClient = client ∨ host.clientMap other = some otherClient := by
  by_cases same : other = fd
  · subst same
    exact .inl (Option.some.inj
      ((Function.update_self other _ _).symm.trans isClient)).symm
  · exact .inr ((Function.update_of_ne same _ _).symm.trans isClient)

theorem Hearing.setClient
    (hearing : Hearing isSet host)
    (empty : client.buffer = [])
    (named : ∀ dev, client.devName = some dev →
      dev ∈ config.devices client.bus ∧
        (host.plug client.bus dev).fd.isSome = true ∧
        (host.sides client.bus).bus.listening = true) :
    Hearing isSet (host.setClient fd client) where
  invariant :=
    { sides := hearing.invariant.sides
      buffers := by
        intro other otherClient isClient
        rcases Host.setClient_cases isClient with rfl | before
        · exact empty
        · exact hearing.invariant.buffers other otherClient before
      named := by
        intro other otherClient isClient dev isNamed
        rcases Host.setClient_cases isClient with rfl | before
        · exact ⟨(named dev isNamed).1, (named dev isNamed).2.1⟩
        · exact hearing.invariant.named other otherClient before dev isNamed }
  opened := by
    intro other set otherClient isClient dev isNamed
    rcases Host.setClient_cases isClient with rfl | before
    · exact (named dev isNamed).2.2
    · exact hearing.opened other set otherClient before dev isNamed

/-- What a read does to the server. -/
structure HeardFrom
    (isSet : Nat → Bool)
    (port : String)
    (host next : Host config) : Prop where
  hearing : Hearing isSet next
  others : ∀ other, other ≠ port → next.sides other = host.sides other
  buses : ∀ fd, (next.clientMap fd).map HostClient.bus =
    (host.clientMap fd).map HostClient.bus

theorem Hearing.refl_heardFrom
    (hearing : Hearing isSet host) :
    HeardFrom isSet port host host :=
  ⟨hearing, fun _ _ => rfl, fun _ => rfl⟩

/-- A client stays on its bus. -/
theorem setClient_buses
    {client' : HostClient}
    (isClient : host.clientMap fd = some client')
    (sameBus : client.bus = client'.bus)
    (other : Nat) :
    ((host.setClient fd client).clientMap other).map HostClient.bus =
      (host.clientMap other).map HostClient.bus := by
  by_cases same : other = fd
  · subst same
    have replaced : (host.setClient other client).clientMap other = some client :=
      Function.update_self other _ _
    rw [isClient, replaced, Option.map_some, Option.map_some, sameBus]
  · exact congrArg (Option.map HostClient.bus) (Function.update_of_ne same _ _)

/-- A change of the bus of a client, which is set as well. -/
theorem Hearing.heardFrom
    (hearing : Hearing isSet host)
    (fd : Nat)
    (client : HostClient)
    {client' : HostClient}
    (isClient : host.clientMap fd = some client')
    (sameBus : client.bus = client'.bus)
    {change : BusSide (config.devices client.bus).length →
      BusSide (config.devices client.bus).length}
    (kept : SideInvariant (change (host.sides client.bus)))
    (listening : (change (host.sides client.bus)).bus.listening = true)
    (wasListening : (host.sides client.bus).bus.listening = true)
    (connected : ∀ dev, (host.plug client.bus dev).fd.isSome = true →
      ((change (host.sides client.bus)).bus.deviceMap dev).fd.isSome = true)
    (empty : client.buffer = [])
    (named : ∀ dev, client.devName = some dev →
      dev ∈ config.devices client.bus ∧
        ((change (host.sides client.bus)).bus.deviceMap dev).fd.isSome = true) :
    HeardFrom isSet client.bus host
      ((host.setClient fd client).updateSide client.bus change) := by
  -- The bus may as well be changed first.
  have changed := hearing.updateSide kept (listening.trans wasListening.symm)
    connected
  have same : (host.updateSide client.bus change).sides client.bus =
      change (host.sides client.bus) := host.updateSide_self _ _
  refine ⟨(changed.setClient empty ?_ :
    Hearing isSet ((host.updateSide client.bus change).setClient fd client)),
    fun other apart => host.updateSide_other change apart,
    setClient_buses isClient sameBus⟩
  intro dev isNamed
  rw [Host.plug, same]
  exact ⟨(named dev isNamed).1, (named dev isNamed).2, listening⟩

theorem setPlug_connected_of
    {bus : BusState}
    {dev other : String}
    {plug : BusDevicePlug}
    (keeps : plug.fd.isSome = true)
    (connected : (bus.deviceMap other).fd.isSome = true) :
    ((bus.setPlug dev plug).deviceMap other).fd.isSome = true := by
  by_cases same : other = dev
  · subst same
    rw [BusState.setPlug_self]
    exact keeps
  · rw [BusState.setPlug_other bus plug same]
    exact connected

/-- HELLO for a device that has not been attached. -/
theorem hello_spec
    {writes : String → String → Bool}
    {name : String}
    (hearing : Hearing isSet host)
    (written : ∀ port dev, writes port dev = true)
    (isClient : host.clientMap fd = some client)
    (unnamed : client.devName = none)
    (unattached : name ∈ config.devices client.bus →
      (host.plug client.bus name).fd = none) :
    ∃ next, host.hello writes fd client name = some next ∧
      HeardFrom isSet client.bus host next := by
  have empty := hearing.invariant.buffers fd client isClient
  unfold Host.hello
  split
  · rename_i isDevice
    rw [written, if_pos rfl]
    refine ⟨_, rfl, ?_⟩
    have side := hearing.invariant.sides client.bus
    have fresh := unattached isDevice
    have flags := side.flags.attach isDevice fresh fd
    have listening : (host.sides client.bus).bus.listening = true := by
      by_contra closed
      rw [Bool.not_eq_true] at closed
      have exited := ((side.flags.closed closed).2 name isDevice).1
      have connected := side.flags.connected name (.inr exited)
      rw [Host.plug] at fresh
      rw [fresh] at connected
      cases connected
    refine hearing.heardFrom fd { client with devName := some name } isClient rfl
      ?_ listening listening ?_ empty ?_
    · exact ⟨flags, side.sound, side.quiet⟩
    · exact fun dev connected => setPlug_connected_of rfl connected
    · rintro dev ⟨⟩
      refine ⟨isDevice, ?_⟩
      exact congrArg (fun plug => plug.fd.isSome) (BusState.setPlug_self _ _ _)
  · refine ⟨_, rfl, ?_, fun _ _ => rfl, setClient_buses isClient rfl⟩
    exact hearing.setClient empty fun dev isNamed =>
      absurd (unnamed.symm.trans isNamed) nofun

/-- A command of a client. -/
theorem command_spec
    {writes : String → String → Bool}
    {command : Command}
    (hearing : Hearing isSet host)
    (written : ∀ port dev, writes port dev = true)
    (set : isSet fd = true)
    (isClient : host.clientMap fd = some client)
    (unattached : client.devName = none → ∀ name ∈ greeted command,
      name ∈ config.devices client.bus →
        (host.plug client.bus name).fd = none) :
    ∃ next, host.command writes fd client command = some next ∧
      HeardFrom isSet client.bus host next := by
  have empty := hearing.invariant.buffers fd client isClient
  have named : ∀ dev, client.devName = some dev →
      dev ∈ config.devices client.bus ∧
        (host.plug client.bus dev).fd.isSome = true ∧
        (host.sides client.bus).bus.listening = true := by
    intro dev isNamed
    obtain ⟨isDevice, connected⟩ :=
      hearing.invariant.named fd client isClient dev isNamed
    exact ⟨isDevice, connected,
      hearing.opened fd set client isClient dev isNamed⟩
  have ignored : HeardFrom isSet client.bus host (host.setClient fd client) :=
    ⟨hearing.setClient empty named, fun _ _ => rfl,
      setClient_buses isClient rfl⟩
  unfold Host.command
  cases isNamed : client.devName with
  | none =>
      cases command with
      | hello name tokens =>
          exact hello_spec hearing written isClient isNamed
            (unattached isNamed name rfl)
      | _ =>
          exact ⟨_, rfl, ignored⟩
  | some dev =>
      obtain ⟨isDevice, connected, listening⟩ := named dev isNamed
      have side := hearing.invariant.sides client.bus
      cases command with
      | hello name tokens =>
          exact ⟨_, rfl, ignored⟩
      | ready time scale values =>
          refine ⟨_, rfl, hearing.heardFrom fd client isClient rfl ?_ listening
            listening ?_ empty ?_⟩
          · exact ⟨side.flags.markReady listening connected, side.sound,
              side.quiet⟩
          · exact fun other connected' =>
              setPlug_connected_of connected connected'
          · intro other isOther
            obtain ⟨isDevice', connected', _⟩ := named other isOther
            exact ⟨isDevice', setPlug_connected_of connected connected'⟩
      | finish =>
          refine ⟨_, rfl, hearing.heardFrom fd client isClient rfl ?_ listening
            listening ?_ empty ?_⟩
          · exact ⟨side.flags.markExited listening connected, side.sound,
              side.quiet⟩
          · exact fun other connected' =>
              setPlug_connected_of connected connected'
          · intro other isOther
            obtain ⟨isDevice', connected', _⟩ := named other isOther
            exact ⟨isDevice', setPlug_connected_of connected connected'⟩

/-- One read of a client. -/
theorem read_spec
    {writes : String → String → Bool}
    {result : CommandRead}
    (hearing : Hearing isSet host)
    (written : ∀ port dev, writes port dev = true)
    (set : isSet fd = true)
    (isClient : host.clientMap fd = some client)
    (good : GoodRead host client result) :
    ∃ next, host.read writes fd client result = some next ∧
      HeardFrom isSet client.bus host next := by
  have empty := hearing.invariant.buffers fd client isClient
  cases result with
  | eof =>
      obtain ⟨dev, isNamed⟩ := Option.isSome_iff_exists.mp good
      obtain ⟨isDevice, connected⟩ :=
        hearing.invariant.named fd client isClient dev isNamed
      have listening := hearing.opened fd set client isClient dev isNamed
      have side := hearing.invariant.sides client.bus
      rw [Host.read, isNamed]
      refine ⟨_, rfl, hearing.updateSide ?_ rfl ?_,
        fun other apart => host.updateSide_other _ apart, fun _ => rfl⟩
      · exact ⟨side.flags.markExited listening connected, side.sound, side.quiet⟩
      · exact fun other connected' => setPlug_connected_of connected connected'
  | commands arrived =>
      obtain ⟨atMostOne, unattached⟩ := good
      rw [empty, List.nil_append] at atMostOne
      unfold Host.read
      simp only
      rw [empty, List.nil_append]
      match arrived, atMostOne with
      | [], _ =>
          exact ⟨host, rfl, hearing.refl_heardFrom⟩
      | [command], _ =>
          have same : { client with buffer := [] } = client := by
            rw [← empty]
          simp only
          rw [same]
          exact command_spec hearing written set isClient
            fun unnamed => unattached unnamed command List.mem_cons_self

/-- All reads of a turn. -/
theorem Hearing.readAll_spec
    {writes : String → String → Bool}
    {reads : List (Nat × CommandRead)}
    (hearing : Hearing isSet host)
    (written : ∀ port dev, writes port dev = true)
    (good : GoodReads writes isSet reads host) :
    ∃ heard, Host.readAll writes isSet reads host = some heard ∧
      Hearing isSet heard ∧
      (∀ fd, (heard.clientMap fd).map HostClient.bus =
        (host.clientMap fd).map HostClient.bus) ∧
      ∀ port, (∀ read ∈ reads,
        (host.clientMap read.1).map HostClient.bus ≠ some port) →
        heard.sides port = host.sides port := by
  induction reads generalizing host with
  | nil =>
      exact ⟨host, rfl, hearing, fun _ => rfl, fun _ _ => rfl⟩
  | cons read rest inductionHypothesis =>
      obtain ⟨fd, result⟩ := read
      unfold GoodReads at good
      unfold Host.readAll
      have skip : GoodReads writes isSet rest host →
          ∃ heard, Host.readAll writes isSet rest host = some heard ∧
            Hearing isSet heard ∧
            (∀ fd, (heard.clientMap fd).map HostClient.bus =
              (host.clientMap fd).map HostClient.bus) ∧
            ∀ port, (∀ read ∈ (fd, result) :: rest,
              (host.clientMap read.1).map HostClient.bus ≠ some port) →
              heard.sides port = host.sides port := by
        intro later
        obtain ⟨heard, isHeard, hearing', buses, unread⟩ :=
          inductionHypothesis hearing later
        exact ⟨heard, isHeard, hearing', buses, fun port none_ =>
          unread port fun read isRead =>
            none_ read (List.mem_cons_of_mem _ isRead)⟩
      cases isClient : host.clientMap fd with
      | none =>
          rw [isClient] at good
          exact skip good
      | some client =>
          rw [isClient] at good
          simp only at good ⊢
          split at good
          · rename_i set
            obtain ⟨isGood, later⟩ := good
            obtain ⟨next, isRead, heardFrom⟩ :=
              read_spec hearing written set isClient isGood
            rw [if_pos set, isRead, Option.bind_some]
            obtain ⟨heard, isHeard, hearing', buses, unread⟩ :=
              inductionHypothesis heardFrom.hearing (later next isRead)
            refine ⟨heard, isHeard, hearing',
              fun fd => (buses fd).trans (heardFrom.buses fd), ?_⟩
            intro port none_
            have apart : port ≠ client.bus := by
              intro same
              apply none_ (fd, result) List.mem_cons_self
              rw [isClient, same]
              rfl
            rw [unread port, heardFrom.others port apart]
            intro read isLater
            rw [heardFrom.buses]
            exact none_ read (List.mem_cons_of_mem _ isLater)
          · rename_i notSet
            rw [if_neg notSet]
            exact skip good

/-- New connections. -/
theorem Hearing.acceptAll_spec
    (hearing : Hearing isSet host)
    (accepted : String → Option Nat) :
    Hearing isSet (host.acceptAll accepted) ∧
      (host.acceptAll accepted).sides = host.sides := by
  unfold Host.acceptAll
  generalize config.ports = ports
  induction ports generalizing host with
  | nil =>
      exact ⟨hearing, rfl⟩
  | cons port rest inductionHypothesis =>
      rw [List.foldl_cons]
      cases accepted port with
      | none =>
          exact inductionHypothesis hearing
      | some fd =>
          simp only
          split
          · exact inductionHypothesis (hearing.setClient rfl nofun)
          · exact inductionHypothesis hearing

/-- The clients of the select are those of open buses. -/
theorem HostInvariant.hearing
    (invariant : HostInvariant host) :
    Hearing host.selected host where
  invariant := invariant
  opened := by
    intro fd set client isClient dev isNamed
    by_contra closed
    rw [Bool.not_eq_true] at closed
    have isDevice := (invariant.named fd client isClient dev isNamed).1
    have exited :=
      (((invariant.sides client.bus).flags.closed closed).2 dev isDevice).1
    rw [Host.selected, isClient] at set
    simp only [isNamed, Host.plug, exited] at set
    cases set

theorem hear_spec
    {input : HostInput}
    (invariant : HostInvariant host)
    (written : ∀ port dev, input.writes port dev = true)
    (good : GoodReads input.writes host.selected input.reads
      (host.acceptAll input.accepted)) :
    ∃ heard, host.hear input = some heard ∧ HostInvariant heard ∧
      ∀ port, (∀ read ∈ input.reads,
        ((host.acceptAll input.accepted).clientMap read.1).map HostClient.bus ≠
          some port) →
        heard.sides port = host.sides port := by
  obtain ⟨accepted, sameSides⟩ :=
    invariant.hearing.acceptAll_spec input.accepted
  obtain ⟨heard, isHeard, hearing, _, unread⟩ :=
    accepted.readAll_spec written good
  refine ⟨heard, isHeard, hearing.invariant, fun port none_ => ?_⟩
  rw [unread port none_, sameSides]

end

/-! ## Turns and runs -/

section

variable {config : Config}
variable {host heard after : Host config}
variable {input : HostInput}

/--
What a turn must find: reads as above, writes that are complete, and buses whose
protocols bear what their devices have reported.
-/
structure Untroubled (host : Host config) (input : HostInput) : Prop where
  reads : GoodReads input.writes host.selected input.reads
    (host.acceptAll input.accepted)
  written : ∀ port dev, input.writes port dev = true
  borne : ∀ heard ∈ host.hear input,
    ∀ port ∈ config.ports, (heard.sides port).Bears

/--
What a turn does to a server that has heard its clients.  A bus that is done is
finished, and what happens to a bus depends on its own clients only.
-/
structure EndsProperly
    (input : HostInput)
    (host heard after : Host config) : Prop where
  goesOn : after.interrupted = false
  /-- No line is left that has not been processed. -/
  processed : ∀ fd client, heard.clientMap fd = some client → client.buffer = []
  finish : ∀ port ∈ config.ports, (heard.sides port).bus.listening = true →
    (∀ dev ∈ config.devices port, (heard.plug port dev).readyFlag = true ∨
      (heard.plug port dev).exitedFlag = true) →
    (∃ dev ∈ config.devices port, (heard.plug port dev).exitedFlag = true) →
    Finished (config.devices port) (heard.sides port).bus (after.sides port).bus
  alone : ∀ port ∈ config.ports,
    (heard.sides port).turn (input.random port) (input.writes port) =
      some (after.sides port)
  unread : ∀ port, (∀ read ∈ input.reads,
    ((host.acceptAll input.accepted).clientMap read.1).map HostClient.bus ≠
      some port) → heard.sides port = host.sides port

theorem start_hostInvariant
    (protos : (port : String) → ProtocolObject (config.devices port).length) :
    HostInvariant (Host.start protos) where
  sides := fun _ =>
    { flags :=
        { connected := fun _ flagged => by
            rcases flagged with ready | exited
            · cases ready
            · cases exited
          opened := fun _ _ _ exited => Bool.noConfusion exited
          closed := fun notListening => Bool.noConfusion notListening
          finished := fun isFinished => Bool.noConfusion isFinished }
      sound := fun started => Bool.noConfusion started
      quiet := rfl }
  buffers := fun _ _ isClient => absurd isClient nofun
  named := fun _ _ isClient => absurd isClient nofun

/-- One turn. -/
theorem turn_endsProperly
    (invariant : HostInvariant host)
    (untroubled : Untroubled host input) :
    ∃ heard after, host.hear input = some heard ∧ host.turn input = some after ∧
      HostInvariant after ∧ EndsProperly input host heard after := by
  obtain ⟨heard, isHeard, kept, unread⟩ :=
    hear_spec invariant untroubled.written untroubled.reads
  have turned : ∀ port ∈ config.ports, ∃ side,
      (heard.sides port).turn (input.random port) (input.writes port) =
        some side ∧ Turned (heard.sides port) side :=
    fun port isPort => turn_spec (kept.sides port)
      (untroubled.borne heard isHeard port isPort) (untroubled.written port)
  -- The buses after their turns; those of no port stay.
  let sides : (port : String) → BusSide (config.devices port).length :=
    fun port =>
      if port ∈ config.ports then
        ((heard.sides port).turn (input.random port) (input.writes port)).getD
          (heard.sides port)
      else
        heard.sides port
  have alone : ∀ port ∈ config.ports,
      (heard.sides port).turn (input.random port) (input.writes port) =
        some (sides port) ∧ Turned (heard.sides port) (sides port) := by
    intro port isPort
    obtain ⟨side, isSide, spec⟩ := turned port isPort
    have same : sides port = side := by
      simp only [sides]
      rw [if_pos isPort, isSide, Option.getD_some]
    rw [same]
    exact ⟨isSide, spec⟩
  have others : ∀ port, port ∉ config.ports → sides port = heard.sides port :=
    fun port notPort => if_neg notPort
  have finished : heard.finishTurn input = some { heard with sides := sides } := by
    rw [finishTurn_eq_some_iff]
    refine ⟨rfl, fun port => ?_⟩
    split
    · rename_i isPort
      exact (alone port isPort).1
    · rename_i notPort
      exact others port notPort
  have sidesInvariant : ∀ port, SideInvariant (sides port) := by
    intro port
    by_cases isPort : port ∈ config.ports
    · exact (alone port isPort).2.invariant
    · rw [others port isPort]
      exact kept.sides port
  refine ⟨heard, { heard with sides := sides }, isHeard, ?_, ?_, ?_⟩
  · rw [Host.turn, isHeard, Option.bind_some, finished]
  · refine ⟨sidesInvariant, kept.buffers, ?_⟩
    intro fd client isClient dev isNamed
    obtain ⟨isDevice, connected⟩ := kept.named fd client isClient dev isNamed
    refine ⟨isDevice, ?_⟩
    by_cases isPort : client.bus ∈ config.ports
    · rw [Host.plug, (alone client.bus isPort).2.connections dev]
      exact connected
    · change ((sides client.bus).bus.deviceMap dev).fd.isSome = true
      rw [others client.bus isPort]
      exact connected
  · refine ⟨?_, kept.buffers, ?_, fun port isPort => (alone port isPort).1,
      unread⟩
    · rw [Host.interrupted, List.any_eq_false]
      intro port _
      rw [(sidesInvariant port).quiet]
      exact Bool.false_ne_true
    · intro port isPort listening done someExited
      refine (alone port isPort).2.finish listening ?_ someExited
      intro dev isDevice
      rcases done dev isDevice with ready | exited
      · exact ready
      · exact (kept.sides port).flags.opened listening dev isDevice exited

variable {protos : (port : String) → ProtocolObject (config.devices port).length}
variable {inputs : Nat → HostInput}

theorem hostRun_hostInvariant
    {turns : Nat}
    (untroubled : ∀ turn < turns, ∀ host,
      hostRun protos inputs turn = some host → Untroubled host (inputs turn)) :
    ∀ turn ≤ turns, ∃ host, hostRun protos inputs turn = some host ∧
      HostInvariant host ∧ host.interrupted = false := by
  intro turn
  induction turn with
  | zero =>
      intro _
      refine ⟨_, rfl, start_hostInvariant protos, ?_⟩
      rw [Host.interrupted, List.any_eq_false]
      exact fun _ _ => Bool.false_ne_true
  | succ turn inductionHypothesis =>
      intro reached
      obtain ⟨host, isHost, invariant, goesOn⟩ :=
        inductionHypothesis (Nat.le_of_succ_le reached)
      obtain ⟨heard, after, _, turned, kept, ends⟩ :=
        turn_endsProperly invariant (untroubled turn reached host isHost)
      refine ⟨after, ?_, kept, ends.goesOn⟩
      rw [hostRun, isHost, Option.bind_some, goesOn]
      exact turned

/--
If every turn is untroubled, no assertion fails, every bus of which a device has
exited is finished as soon as all others are ready or have exited, and the other
buses go on.
-/
theorem hostRun_endsProperly
    {turns : Nat}
    (untroubled : ∀ turn < turns, ∀ host,
      hostRun protos inputs turn = some host → Untroubled host (inputs turn)) :
    ∀ turn < turns, ∃ host heard after,
      hostRun protos inputs turn = some host ∧
        host.hear (inputs turn) = some heard ∧
        hostRun protos inputs (turn + 1) = some after ∧
        EndsProperly (inputs turn) host heard after := by
  intro turn reached
  obtain ⟨host, isHost, invariant, goesOn⟩ :=
    hostRun_hostInvariant untroubled turn reached.le
  obtain ⟨heard, after, isHeard, turned, _, ends⟩ :=
    turn_endsProperly invariant (untroubled turn reached host isHost)
  refine ⟨host, heard, after, isHost, isHeard, ?_, ends⟩
  rw [hostRun, isHost, Option.bind_some, goesOn]
  exact turned

end

/-! ## Clients that leave before their first READY -/

/-- One bus with a host and a device. -/
def hostAndDevice : Config where
  ports := ["tcp:1"]
  portsDistinct := onePort_distinct
  devices := fun _ => ["dev", "host"]

/-- The clock of the buses below. -/
def slowClock : BusClock :=
  .ofOptions ⟨15000, 15000, 4000, 4000⟩

/-- A point-to-point bus. -/
def p2pBus (port : String) :
    ProtocolObject (hostAndDevice.devices port).length :=
  .pointToPoint (1 : Fin 2) (0 : Fin 2)
    { clock := slowClock, masterClockMode := .run, widO := 8, widI := 8 }

/-- An AXI4 bus with the default widths. -/
def axi4Bus (port : String) :
    ProtocolObject (hostAndDevice.devices port).length :=
  .axi4 (1 : Fin 2) (0 : Fin 2)
    (Axi4.AXI4Protocol.configure { clock := slowClock, widths := ⟨0, 0, 0, 0, 0⟩ }
      ⟨0, 0, 0, 0, 0⟩)

/-- A turn with a connection and some reads; all writes are complete. -/
def hostTurn
    (accepted : Option Nat)
    (reads : List (Nat × CommandRead)) : HostInput where
  accepted := fun _ => accepted
  reads := reads
  peekTime := fun _ => 0
  random := fun _ => 0
  writes := fun _ _ => true

/-- After their HELLO the host sends FINISH and the device closes its socket. -/
def earlyExit : Nat → HostInput
  | 0 => hostTurn (some 3) []
  | 1 => hostTurn (some 4) [(3, .commands [.hello "host" []])]
  | 2 => hostTurn none [(4, .commands [.hello "dev" []])]
  | 3 => hostTurn none [(3, .commands [.finish])]
  | 4 => hostTurn none [(4, .eof)]
  | _ => hostTurn none []

theorem p2pBus_endsProperly :
    ∃ host heard after,
      hostRun p2pBus earlyExit 4 = some host ∧
        host.hear (earlyExit 4) = some heard ∧
        hostRun p2pBus earlyExit 5 = some after ∧
        EndsProperly (earlyExit 4) host heard after := by
  have evaluated : ∀ turn < 5, ∀ host ∈ hostRun p2pBus earlyExit turn,
      GoodReads (earlyExit turn).writes host.selected (earlyExit turn).reads
          (host.acceptAll (earlyExit turn).accepted) ∧
        ∀ heard ∈ host.hear (earlyExit turn),
          ∀ port ∈ hostAndDevice.ports, (heard.sides port).Bears := by
    decide +kernel
  have untroubled : ∀ turn < 5, ∀ host,
      hostRun p2pBus earlyExit turn = some host →
        Untroubled host (earlyExit turn) := by
    intro turn reached host isHost
    obtain ⟨reads, borne⟩ := evaluated turn reached host isHost
    refine ⟨reads, fun _ _ => ?_, borne⟩
    unfold earlyExit
    split <;> rfl
  exact hostRun_endsProperly untroubled 4 (by decide)

/-- A point-to-point bus is finished, and the assertion of AXI4 fails. -/
theorem earlyExit_not_borne :
    (∃ host, hostRun p2pBus earlyExit 5 = some host ∧
      (host.sides "tcp:1").bus.history =
        [.youAre "host", .youAre "dev", .runInit,
          .finish [("dev", some 4), ("host", some 3)]]) ∧
      (hostRun axi4Bus earlyExit 4).isSome = true ∧
      hostRun axi4Bus earlyExit 5 = none := by
  refine ⟨?_, by decide +kernel, by decide +kernel⟩
  have evaluated :
      (hostRun p2pBus earlyExit 5).map
          (fun host => (host.sides "tcp:1").bus.history) =
        some
          [.youAre "host", .youAre "dev", .runInit,
            .finish [("dev", some 4), ("host", some 3)]] := by
    decide +kernel
  exact Option.map_eq_some_iff.mp evaluated

end Service

end Simbus
