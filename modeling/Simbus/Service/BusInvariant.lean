import Simbus.Service.Server

/-!
# What holds of a bus

The invariant that ties the flags of a bus to its history, and what each
operation of the server does to it.
-/

namespace Simbus.Service

/-- The flags of a bus agree with its history, which is a proper life. -/
structure BusInvariant
    (devices : List String)
    (bus : BusState) : Prop where
  lifecycle : Lifecycle devices bus.history
  fresh : bus.needInitialization = true → .runInit ∉ bus.history
  started : bus.needInitialization = false → .runInit ∈ bus.history
  ready : ∀ dev ∈ devices, (bus.deviceMap dev).readyFlag = true →
    (bus.deviceMap dev).exitedFlag = true ∨ ReadySince dev bus.history
  connected : ∀ dev ∈ devices, (bus.deviceMap dev).readyFlag = true →
    (bus.deviceMap dev).fd.isSome = true
  left : ∀ event ∈ bus.history, event.IsLeave →
    ∃ dev ∈ devices, (bus.deviceMap dev).exitedFlag = true
  opened : bus.listening = true → ∀ event ∈ bus.history, ¬ event.IsFinish
  closed : bus.listening = false → devices ≠ [] ∧
    ∀ dev ∈ devices,
      (bus.deviceMap dev).readyFlag = false ∧
        (bus.deviceMap dev).exitedFlag = true
  finished : bus.finished = true → devices ≠ []

section

variable {devices : List String}
variable {bus : BusState}
variable {dev : String}

theorem BusState.setPlug_self
    (bus : BusState)
    (dev : String)
    (plug : BusDevicePlug) :
    (bus.setPlug dev plug).deviceMap dev = plug := by
  simp [BusState.setPlug]

theorem BusState.setPlug_other
    (bus : BusState)
    {dev other : String}
    (plug : BusDevicePlug)
    (apart : other ≠ dev) :
    (bus.setPlug dev plug).deviceMap other = bus.deviceMap other := by
  simp [BusState.setPlug, apart]

/-- The bus before anybody has connected. -/
theorem init_busInvariant
    (devices : List String)
    (port : String) :
    BusInvariant devices (Server.init.busMap port) where
  lifecycle := .nil
  fresh := fun _ => List.not_mem_nil
  started := nofun
  ready := fun _ _ isReady => nomatch isReady
  connected := fun _ _ isReady => nomatch isReady
  left := nofun
  opened := fun _ _ member => nomatch member
  closed := nofun
  finished := nofun

/-! ## Readings -/

/-- A plug may change as long as its flags keep to the history. -/
theorem BusInvariant.setPlug
    (invariant : BusInvariant devices bus)
    {plug : BusDevicePlug}
    (listening : bus.listening = true)
    (stays : (bus.deviceMap dev).exitedFlag = true →
      plug.exitedFlag = true)
    (ready : plug.readyFlag = true →
      plug.exitedFlag = true ∨ ReadySince dev bus.history)
    (connected : plug.readyFlag = true → plug.fd.isSome = true) :
    BusInvariant devices (bus.setPlug dev plug) where
  lifecycle := invariant.lifecycle
  fresh := invariant.fresh
  started := invariant.started
  ready := by
    intro other member isReady
    by_cases same : other = dev
    · subst same
      rw [BusState.setPlug_self] at isReady ⊢
      exact ready isReady
    · rw [BusState.setPlug_other bus plug same] at isReady ⊢
      exact invariant.ready other member isReady
  connected := by
    intro other member isReady
    by_cases same : other = dev
    · subst same
      rw [BusState.setPlug_self] at isReady ⊢
      exact connected isReady
    · rw [BusState.setPlug_other bus plug same] at isReady ⊢
      exact invariant.connected other member isReady
  left := by
    intro event member leaves
    obtain ⟨other, isDevice, exited⟩ := invariant.left event member leaves
    refine ⟨other, isDevice, ?_⟩
    by_cases same : other = dev
    · subst same
      rw [BusState.setPlug_self]
      exact stays exited
    · rw [BusState.setPlug_other bus plug same]
      exact exited
  opened := invariant.opened
  closed := by
    intro closed
    rw [BusState.setPlug, listening] at closed
    cases closed
  finished := invariant.finished

/-- An event of an open bus that is no round and no FINISH. -/
theorem BusInvariant.record
    (invariant : BusInvariant devices bus)
    {event : Event}
    (listening : bus.listening = true)
    (noInit : event ≠ .runInit)
    (noWait : ¬ event.EndsWait)
    (leaves : event.IsLeave →
      ∃ dev ∈ devices, (bus.deviceMap dev).exitedFlag = true) :
    BusInvariant devices (bus.record event) where
  lifecycle := by
    apply invariant.lifecycle.snoc
    exact
      { runInit := fun isInit => (noInit isInit).elim
        endsWait := fun endsWait => (noWait endsWait).elim
        round := by
          rintro sent rfl
          exact (noWait (.inl trivial)).elim
        message := fun _ => invariant.opened listening }
  fresh := by
    intro needs member
    rcases List.mem_append.mp member with earlier | isLast
    · exact invariant.fresh needs earlier
    · exact noInit (List.mem_singleton.mp isLast).symm
  started := fun needs => List.mem_append_left _ (invariant.started needs)
  ready := fun other member isReady =>
    (invariant.ready other member isReady).imp_right fun since =>
      since.snoc fun isUntil => noWait (.inl isUntil)
  connected := invariant.connected
  left := by
    intro earlier member isLeave
    rcases List.mem_append.mp member with before | isLast
    · exact invariant.left earlier before isLeave
    · exact leaves (List.mem_singleton.mp isLast ▸ isLeave)
  opened := by
    intro _ earlier member
    rcases List.mem_append.mp member with before | isLast
    · exact invariant.opened listening earlier before
    · rw [List.mem_singleton.mp isLast]
      exact fun isFinish => noWait (.inr isFinish)
  closed := by
    intro closed
    rw [BusState.record, listening] at closed
    cases closed
  finished := invariant.finished

/-- HELLO of a known device on an open bus. -/
theorem BusInvariant.attach
    (invariant : BusInvariant devices bus)
    (listening : bus.listening = true)
    (fd : Nat)
    (dev : String) :
    BusInvariant devices (attach fd dev bus) := by
  refine BusInvariant.record ?_ listening nofun ?_ nofun
  · exact invariant.setPlug listening id nofun nofun
  · rintro (isUntil | isFinish) <;> contradiction

/-- READY of a connected device of an open bus. -/
theorem BusInvariant.markReady
    (invariant : BusInvariant devices bus)
    (listening : bus.listening = true)
    (connected : (bus.deviceMap dev).fd.isSome = true) :
    BusInvariant devices (markReady dev bus) := by
  -- The READY is in the history before the flag is set.
  have recorded : BusInvariant devices (bus.record (.ready dev)) := by
    refine invariant.record listening Event.noConfusion ?_ nofun
    rintro (isUntil | isFinish) <;> contradiction
  exact recorded.setPlug listening id (fun _ => .inr .ready)
    fun _ => connected

/-- FINISH of a connected device of an open bus, or its end of stream. -/
theorem BusInvariant.markExited
    (invariant : BusInvariant devices bus)
    (listening : bus.listening = true)
    (connected : (bus.deviceMap dev).fd.isSome = true) :
    BusInvariant devices (markExited dev bus) :=
  invariant.setPlug listening (fun _ => rfl) (fun _ => .inl rfl)
    fun _ => connected

/-- A device that has exited is recorded to have left. -/
theorem BusInvariant.recordLeave
    (invariant : BusInvariant devices bus)
    (listening : bus.listening = true)
    (isDevice : dev ∈ devices)
    (exited : (bus.deviceMap dev).exitedFlag = true) :
    BusInvariant devices (bus.record (.leaves dev)) := by
  refine invariant.record listening Event.noConfusion ?_
    fun _ => ⟨dev, isDevice, exited⟩
  rintro (isUntil | isFinish) <;> contradiction

/-! ## The scan -/

/-- The scan changes the finished flag only. -/
theorem scanDevices_shape
    (devices : List String)
    (bus : BusState) :
    ∃ finished,
      (scanDevices devices bus).2 = { bus with finished := finished } ∧
        (finished = true → bus.finished = true ∨ devices ≠ []) := by
  induction devices generalizing bus with
  | nil =>
      exact ⟨bus.finished, rfl, .inl⟩
  | cons dev rest inductionHypothesis =>
      rw [scanDevices]
      by_cases isReady : (bus.deviceMap dev).readyFlag = true
      · rw [if_pos isReady]
        obtain ⟨finished, shape, _⟩ := inductionHypothesis
          (if (bus.deviceMap dev).exitedFlag = true then
            { bus with finished := true }
          else
            bus)
        refine ⟨finished, ?_, fun _ => .inr (List.cons_ne_nil dev rest)⟩
        rw [shape]
        split <;> rfl
      · rw [if_neg isReady]
        exact ⟨bus.finished, rfl, .inl⟩

/-- A scan that passes has found all devices ready and seen all exits. -/
theorem scanDevices_passes
    {devices : List String}
    {bus : BusState}
    (passes : (scanDevices devices bus).1 = true) :
    (∀ dev ∈ devices, (bus.deviceMap dev).readyFlag = true) ∧
      ((scanDevices devices bus).2.finished = false →
        ∀ dev ∈ devices, (bus.deviceMap dev).exitedFlag = false) ∧
      (bus.finished = true →
        (scanDevices devices bus).2.finished = true) := by
  induction devices generalizing bus with
  | nil =>
      exact ⟨nofun, fun _ => nofun, id⟩
  | cons dev rest inductionHypothesis =>
      rw [scanDevices] at passes ⊢
      by_cases isReady : (bus.deviceMap dev).readyFlag = true
      · rw [if_pos isReady] at passes ⊢
        by_cases exited : (bus.deviceMap dev).exitedFlag = true
        · rw [if_pos exited] at passes ⊢
          obtain ⟨allReady, _, stays⟩ := inductionHypothesis passes
          have finished := stays rfl
          refine ⟨List.forall_mem_cons.mpr ⟨isReady, allReady⟩, ?_,
            fun _ => finished⟩
          intro notFinished
          rw [finished] at notFinished
          cases notFinished
        · rw [if_neg exited] at passes ⊢
          obtain ⟨allReady, notExited, stays⟩ := inductionHypothesis passes
          rw [Bool.not_eq_true] at exited
          exact ⟨List.forall_mem_cons.mpr ⟨isReady, allReady⟩,
            fun notFinished => List.forall_mem_cons.mpr
              ⟨exited, notExited notFinished⟩, stays⟩
      · rw [if_neg isReady] at passes
        cases passes

/-- The scan keeps the invariant. -/
theorem BusInvariant.scan
    (invariant : BusInvariant devices bus) :
    BusInvariant devices (scanDevices devices bus).2 := by
  obtain ⟨finished, shape, origin⟩ := scanDevices_shape devices bus
  rw [shape]
  exact
    { lifecycle := invariant.lifecycle
      fresh := invariant.fresh
      started := invariant.started
      ready := invariant.ready
      connected := invariant.connected
      left := invariant.left
      opened := invariant.opened
      closed := invariant.closed
      finished := fun isFinished =>
        (origin isFinished).elim invariant.finished id }

/-- A closed bus does not pass the scan. -/
theorem BusInvariant.listening_of_passes
    (invariant : BusInvariant devices bus)
    (passes : (scanDevices devices bus).1 = true) :
    bus.listening = true := by
  by_contra notListening
  rw [Bool.not_eq_true] at notListening
  obtain ⟨some_, closed⟩ := invariant.closed notListening
  obtain ⟨dev, member⟩ := List.exists_mem_of_ne_nil devices some_
  have isReady := (scanDevices_passes passes).1 dev member
  rw [(closed dev member).1] at isReady
  cases isReady

/-! ## Initialization and rounds -/

theorem BusInvariant.assemblyComplete
    (invariant : BusInvariant devices bus)
    (needs : bus.needInitialization = true) :
    BusInvariant devices (assemblyComplete bus) where
  lifecycle := by
    apply invariant.lifecycle.snoc
    exact
      { runInit := fun _ => invariant.fresh needs
        endsWait := by rintro (isUntil | isFinish) <;> contradiction
        round := nofun
        message := nofun }
  fresh := nofun
  started := fun _ =>
    List.mem_append_right _ (List.mem_singleton_self _)
  ready := fun dev member isReady =>
    (invariant.ready dev member isReady).imp_right fun since =>
      since.snoc nofun
  connected := invariant.connected
  left := by
    intro event member leaves
    rcases List.mem_append.mp member with earlier | isLast
    · exact invariant.left event earlier leaves
    · rw [List.mem_singleton.mp isLast] at leaves
      exact leaves.elim
  opened := by
    intro listening event member
    rcases List.mem_append.mp member with earlier | isLast
    · exact invariant.opened listening event earlier
    · rw [List.mem_singleton.mp isLast]
      exact id
  closed := invariant.closed
  finished := invariant.finished

theorem BusInvariant.initializeBus
    (invariant : BusInvariant devices bus) :
    BusInvariant devices (initializeBus devices bus) := by
  unfold Service.initializeBus
  split
  · rename_i needs
    obtain ⟨finished, shape, _⟩ := scanDevices_shape devices bus
    simp only
    split
    · apply BusInvariant.assemblyComplete invariant.scan
      rw [shape]
      exact needs
    · exact invariant.scan
  · exact invariant

theorem BusInvariant.checkBus
    (invariant : BusInvariant devices bus) :
    BusInvariant devices (checkBus devices bus) := by
  unfold Service.checkBus
  split
  · exact invariant
  · exact invariant.scan

theorem clearReady_plug
    (isDevice : dev ∈ devices) :
    (clearReady devices bus).deviceMap dev =
      { bus.deviceMap dev with readyFlag := false } :=
  if_pos isDevice

/-- The messages go to all devices. -/
theorem recipients_devices
    (devices : List String)
    (bus : BusState) :
    (recipients devices bus).map Prod.fst = devices := by
  rw [recipients, List.map_map]
  exact List.map_id' devices

/-- What a bus in the run list has gone through. -/
structure CanRun (devices : List String) (bus : BusState) : Prop where
  initialized : bus.needInitialization = false
  listening : bus.listening = true
  ready : ∀ dev ∈ devices, (bus.deviceMap dev).readyFlag = true
  exits : bus.finished = false →
    ∀ dev ∈ devices, (bus.deviceMap dev).exitedFlag = false

theorem BusInvariant.canRun
    (invariant : BusInvariant devices bus)
    (runs : Service.canRun devices bus = true) :
    CanRun devices (Service.checkBus devices bus) := by
  rw [Service.canRun, Bool.and_eq_true, Bool.not_eq_true'] at runs
  obtain ⟨initialized, passes⟩ := runs
  obtain ⟨allReady, notExited, _⟩ := scanDevices_passes passes
  obtain ⟨finished, shape, _⟩ := scanDevices_shape devices bus
  have listening := invariant.listening_of_passes passes
  have checked : Service.checkBus devices bus =
      (scanDevices devices bus).2 := by
    rw [Service.checkBus, initialized]
    rfl
  rw [checked]
  rw [shape] at notExited ⊢
  exact
    { initialized := initialized
      listening := listening
      ready := allReady
      exits := notExited }

/-- A round of a bus without exits. -/
theorem BusInvariant.untilRound
    (invariant : BusInvariant devices bus)
    (runs : CanRun devices bus)
    (goesOn : bus.finished = false) :
    BusInvariant devices
      ((clearReady devices bus).record
        (.untilRound (recipients devices (clearReady devices bus)))) where
  lifecycle := by
    apply invariant.lifecycle.snoc
    have notExited := runs.exits goesOn
    exact
      { runInit := nofun
        endsWait := fun _ => invariant.started runs.initialized
        round := by
          rintro sent same
          rw [Event.untilRound.injEq] at same
          subst same
          refine ⟨?_, recipients_devices devices _, ?_, ?_⟩
          · intro dev member
            rcases invariant.ready dev member (runs.ready dev member) with
              exited | since
            · rw [notExited dev member] at exited
              cases exited
            · exact since
          · intro entry member
            obtain ⟨dev, isDevice, rfl⟩ := List.mem_map.mp member
            rw [clearReady_plug isDevice]
            exact invariant.connected dev isDevice
              (runs.ready dev isDevice)
          · intro earlier member leaves
            obtain ⟨dev, isDevice, exited⟩ :=
              invariant.left earlier member leaves
            rw [notExited dev isDevice] at exited
            cases exited
        message := fun _ => invariant.opened runs.listening }
  fresh := by
    intro needs
    rw [BusState.record, clearReady, runs.initialized] at needs
    cases needs
  started := fun _ =>
    List.mem_append_left _ (invariant.started runs.initialized)
  ready := by
    intro dev member isReady
    rw [BusState.record, clearReady_plug member] at isReady
    cases isReady
  connected := by
    intro dev member isReady
    rw [BusState.record, clearReady_plug member] at isReady
    cases isReady
  left := by
    intro event member leaves
    rcases List.mem_append.mp member with earlier | isLast
    · obtain ⟨dev, isDevice, exited⟩ := invariant.left event earlier leaves
      refine ⟨dev, isDevice, ?_⟩
      rw [BusState.record, clearReady_plug isDevice]
      exact exited
    · rw [List.mem_singleton.mp isLast] at leaves
      exact leaves.elim
  opened := by
    intro _ event member
    rcases List.mem_append.mp member with earlier | isLast
    · exact invariant.opened runs.listening event earlier
    · rw [List.mem_singleton.mp isLast]
      exact id
  closed := by
    intro closed
    rw [BusState.record, clearReady, runs.listening] at closed
    cases closed
  finished := invariant.finished

/-- The last round of a bus. -/
theorem BusInvariant.finishRound
    (invariant : BusInvariant devices bus)
    (runs : CanRun devices bus)
    (isFinished : bus.finished = true) :
    BusInvariant devices
      ((closeBus devices (clearReady devices bus)).record
        (.finish (recipients devices (clearReady devices bus)))) := by
  have plug : ∀ dev ∈ devices,
      (closeBus devices (clearReady devices bus)).deviceMap dev =
        { bus.deviceMap dev with readyFlag := false, exitedFlag := true } := by
    intro dev member
    rw [closeBus]
    simp only [if_pos member, clearReady_plug member]
  have someDevice := invariant.finished isFinished
  exact
    { lifecycle := by
        apply invariant.lifecycle.snoc
        exact
          { runInit := nofun
            endsWait := fun _ => invariant.started runs.initialized
            round := nofun
            message := fun _ => invariant.opened runs.listening }
      fresh := by
        intro needs
        rw [BusState.record, closeBus, clearReady, runs.initialized] at needs
        cases needs
      started := fun _ =>
        List.mem_append_left _ (invariant.started runs.initialized)
      ready := by
        intro dev member isReady
        rw [BusState.record, plug dev member] at isReady
        cases isReady
      connected := by
        intro dev member isReady
        rw [BusState.record, plug dev member] at isReady
        cases isReady
      left := by
        intro event _ _
        obtain ⟨dev, member⟩ := List.exists_mem_of_ne_nil devices someDevice
        refine ⟨dev, member, ?_⟩
        rw [BusState.record, plug dev member]
      opened := nofun
      closed := by
        intro _
        refine ⟨someDevice, fun dev member => ?_⟩
        rw [BusState.record, plug dev member]
        exact ⟨rfl, rfl⟩
      finished := fun _ => someDevice }

theorem BusInvariant.busReady
    (invariant : BusInvariant devices bus)
    (runs : CanRun devices bus) :
    BusInvariant devices (busReady devices bus) := by
  unfold Service.busReady
  simp only
  split
  · rename_i isFinished
    exact invariant.finishRound runs isFinished
  · rename_i goesOn
    rw [Bool.not_eq_true] at goesOn
    exact invariant.untilRound runs goesOn

end

end Simbus.Service
