import Simbus.Pci.Blend
import Simbus.Pci.Etiquette

/-!
# One master at a time

The masters keep the etiquette, and all other clients leave FRAME# and IRDY#
alone.  Then at most one device drives these signals, and the owner record of
the server names it.
-/

namespace Simbus.Pci

open FourValued Clocked PciProtocol

variable {n : Nat}
variable {bus : PciBus n}

namespace PciProtocol

variable {proto proto' : PciProtocol n}

/-- What a device last reported on REQ#, FRAME# and IRDY#. -/
def driveAt (proto : PciProtocol n) (dev : Fin n) : Drive :=
  driveOf (proto.clientSignals dev)

/-! ## Ownership of the bus -/

/--
The relation between the grant, the owner record, the last sample of REQ# and
the outputs of the devices.  `masters` are the devices that may drive FRAME#.
-/
structure OwnerInvariant
    (bus : PciBus n)
    (masters : Fin n → Prop)
    (proto : PciProtocol n) : Prop where
  exclusive : ∀ first second,
    (proto.driveAt first).Active → (proto.driveAt second).Active →
      first = second
  bystander : ∀ dev, ¬ masters dev → ¬ (proto.driveAt dev).Active
  proper : ∀ dev, masters dev → (proto.driveAt dev).Proper
  holder : ∀ dev, (proto.driveAt dev).Holds →
    proto.master = some dev ∨
      (proto.granted = some dev ∧
        (proto.driveAt dev).frameN = .zero ∧
        proto.reqN (bus.ident dev) = .zero)
  grantee : ∀ dev, masters dev → proto.granted = some dev →
    proto.master = some dev ∨
      proto.driveAt dev = .requesting ∨
      ((proto.driveAt dev).frameN = .zero ∧
        proto.reqN (bus.ident dev) = .zero)
  requester : ∀ dev, masters dev → proto.reqN (bus.ident dev) = .zero →
    proto.granted = some dev ∨ proto.driveAt dev = .requesting

variable {masters : Fin n → Prop}
variable {dev : Fin n}

/-- The grant may move, but not away from a device that has just started. -/
theorem OwnerInvariant.arbitrated
    (invariant : OwnerInvariant bus masters proto)
    (arbitrated : Arbitrated bus proto proto') :
    OwnerInvariant bus masters proto' := by
  have sameDrive : ∀ dev, proto'.driveAt dev = proto.driveAt dev := by
    intro dev
    rw [driveAt, driveAt, arbitrated.clientSignals_eq]
  have sameReqN := arbitrated.reqN_eq
  have sameMaster := arbitrated.master_eq
  refine
    { exclusive := ?_
      bystander := ?_
      proper := ?_
      holder := ?_
      grantee := ?_
      requester := ?_ }
  · intro first second
    rw [sameDrive, sameDrive]
    exact invariant.exclusive first second
  · intro dev
    rw [sameDrive]
    exact invariant.bystander dev
  · intro dev
    rw [sameDrive]
    exact invariant.proper dev
  · intro dev
    rw [sameDrive, sameReqN, sameMaster]
    intro holds
    rcases invariant.holder dev holds with isMaster | ⟨granted, frames, requests⟩
    · exact .inl isMaster
    · cases arbitrated with
      | kept _ =>
          exact .inr ⟨granted, frames, requests⟩
      | recalled _ _ idle _ _ =>
          exact (idle _ requests).elim
      | moved _ _ _ granteeIdle _ _ =>
          exact ((granteeIdle dev granted).2 requests).elim
  · intro dev isMaster
    rw [sameDrive, sameReqN, sameMaster]
    cases arbitrated with
    | kept _ =>
        exact invariant.grantee dev isMaster
    | recalled _ _ _ _ _ =>
        intro granted
        cases granted
    | moved _ newDev _ granteeIdle requests _ =>
        intro granted
        have isNew : newDev = dev := by
          unfold giveGrant at granted
          split at granted <;> exact Option.some.inj granted
        subst isNew
        rcases invariant.requester newDev isMaster requests with
          already | requesting
        · exact ((granteeIdle newDev already).2 requests).elim
        · exact .inr (.inl requesting)
  · intro dev isMaster
    rw [sameDrive, sameReqN]
    intro requests
    rcases invariant.requester dev isMaster requests with
      granted | requesting
    · cases arbitrated with
      | kept _ =>
          exact .inl granted
      | recalled _ _ idle _ _ =>
          exact (idle _ requests).elim
      | moved _ _ _ granteeIdle _ _ =>
          exact ((granteeIdle dev granted).2 requests).elim
    · exact .inr requesting

/-- No other device drives FRAME# or IRDY# to 0. -/
theorem OwnerInvariant.not_holds
    (invariant : OwnerInvariant bus masters proto)
    {dev other : Fin n}
    (active : (proto.driveAt dev).Active)
    (apart : other ≠ dev) :
    ¬ (proto.driveAt other).Holds := fun holds =>
  apart (invariant.exclusive other dev holds.active active)

/-- After the rising edge has been tracked, the owner record names the holder. -/
theorem OwnerInvariant.nextMaster_holder
    (invariant : OwnerInvariant bus masters proto)
    (holds : (proto.driveAt dev).Holds) :
    proto.nextMaster = some dev := by
  have drives :
      proto.frameOf dev = .zero ∨ proto.irdyOf dev = .zero :=
    holds
  unfold nextMaster
  rcases invariant.holder dev holds with isMaster | ⟨granted, frames, _⟩
  · rw [isMaster]
    cases grantedShape : proto.granted with
    | none =>
        have stays :
            ¬ (proto.frameOf dev ≠ .zero ∧ proto.irdyOf dev ≠ .zero) := by
          tauto
        simp [stays]
    | some granted =>
        simp [drives]
  · rw [granted]
    have starts : proto.frameOf dev = .zero := frames
    cases masterShape : proto.master with
    | none =>
        simp [starts]
    | some master =>
        by_cases same : master = dev
        · simp [same]
        · -- Nobody else drives, so the bus passes to the grantee.
          have idle :
              ¬ (proto.frameOf master = .zero ∨
                proto.irdyOf master = .zero) :=
            invariant.not_holds holds.active same
          simp [same, idle]

/-- The owner record stays with a grantee that is recorded already. -/
theorem nextMaster_granted
    (isMaster : proto.master = some dev)
    (granted : proto.granted = some dev) :
    proto.nextMaster = some dev := by
  simp [nextMaster, isMaster, granted]

/-! ## What a master sees -/

/-- A device that releases a bit is sent the only value driven on it. -/
theorem sentTo_of_single
    {clientSignals : Fin n → ClientSignals}
    {bit : BiBit}
    {dev driver : Fin n}
    (released : (clientSignals dev).bi.get bit = .z)
    (single : ∀ other, other ≠ driver →
      (clientSignals other).bi.get bit = .z) :
    (sentTo (blendedBus clientSignals) (clientSignals dev).bi).get bit =
      (clientSignals driver).bi.get bit := by
  rw [sentTo, BiSignals.get_ofBits, released, subtractFeedback,
    if_pos rfl, blendedBus_get]
  apply resolveAll_of_agree (mem_drivesOn clientSignals bit driver)
  intro drive member
  obtain ⟨other, _, rfl⟩ := List.mem_map.mp member
  by_cases same : other = driver
  · exact .inr (same ▸ rfl)
  · exact .inl (single other same)

/-- Whoever may start sees a bus that no other device holds. -/
theorem OwnerInvariant.others_not_holds
    (invariant : OwnerInvariant bus masters proto)
    {dev other : Fin n}
    (quiet : ¬ (proto.driveAt dev).Active)
    {signals : BiSignals}
    (sent : signals =
      sentTo (blendedBus proto.clientSignals) (proto.clientSignals dev).bi)
    (frameIdle : signals.frameN ≠ .zero)
    (irdyIdle : signals.irdyN ≠ .zero) :
    ¬ (proto.driveAt other).Holds := by
  intro holds
  have quietFrame : (proto.clientSignals dev).bi.get .frameN = .z := by
    by_contra drives
    exact quiet (.inl drives)
  have quietIrdy : (proto.clientSignals dev).bi.get .irdyN = .z := by
    by_contra drives
    exact quiet (.inr drives)
  have othersQuiet : ∀ third, third ≠ other →
      ¬ (proto.driveAt third).Active := fun third apart active =>
    apart (invariant.exclusive third other active holds.active)
  have singleFrame : ∀ third, third ≠ other →
      (proto.clientSignals third).bi.get .frameN = .z := by
    intro third apart
    by_contra drives
    exact othersQuiet third apart (.inl drives)
  have singleIrdy : ∀ third, third ≠ other →
      (proto.clientSignals third).bi.get .irdyN = .z := by
    intro third apart
    by_contra drives
    exact othersQuiet third apart (.inr drives)
  have seenFrame := sentTo_of_single quietFrame singleFrame
  have seenIrdy := sentTo_of_single quietIrdy singleIrdy
  rw [← sent] at seenFrame seenIrdy
  rcases holds with frames | readies
  · exact frameIdle (seenFrame.trans frames)
  · exact irdyIdle (seenIrdy.trans readies)

/-! ## The rising edge -/

/-- How the outputs change at a rising edge, given what was sampled and sent. -/
structure EdgeStep
    (masters : Fin n → Prop)
    (proto : PciProtocol n)
    (reports : Fin n → ClientSignals) : Prop where
  bystander : ∀ dev, ¬ masters dev → ¬ (driveOf (reports dev)).Active
  next : ∀ dev, masters dev →
    ∃ manners : Manners,
      manners.Next (driveOf (reports dev)) ∧
        manners.shown = proto.driveAt dev ∧
        (manners.gntN = .zero → proto.granted = some dev) ∧
        ∃ signals : BiSignals,
          signals = sentTo (blendedBus proto.clientSignals)
            (proto.clientSignals dev).bi ∧
            manners.frameN = signals.frameN ∧
            manners.irdyN = signals.irdyN

/-- A master that becomes active at an edge starts with the grant. -/
theorem EdgeStep.starts
    {reports : Fin n → ClientSignals}
    (edge : EdgeStep masters proto reports)
    (invariant : OwnerInvariant bus masters proto)
    (quiet : ¬ (proto.driveAt dev).Active)
    (active : (driveOf (reports dev)).Active) :
    masters dev ∧ proto.granted = some dev ∧
      (driveOf (reports dev)).Owns ∧
      (driveOf (reports dev)).frameN = .zero ∧
      ∀ other, ¬ (proto.driveAt other).Holds := by
  have isMaster : masters dev := by
    by_contra notMaster
    exact edge.bystander dev notMaster active
  obtain ⟨manners, next, shown, granted, signals, sent, frame, irdy⟩ :=
    edge.next dev isMaster
  generalize driveOf (reports dev) = drive at next active ⊢
  cases next with
  | rest _ =>
      exact (Drive.not_active_quiet _ active).elim
  | request _ =>
      exact (Drive.not_active_quiet _ active).elim
  | wait _ =>
      exact (Drive.not_active_quiet _ active).elim
  | start _ starts =>
      refine ⟨isMaster, granted starts.mayStart.granted, starts.owns,
        starts.frames, fun other => ?_⟩
      exact invariant.others_not_holds quiet sent
        (frame ▸ starts.mayStart.frameN) (irdy ▸ starts.mayStart.irdyN)
  | proceed owns _ =>
      exact (quiet (shown ▸ owns.holds.active)).elim
  | settle _ =>
      exact (Drive.not_active_quiet _ active).elim

/-- A device that stays active over an edge held the bus before. -/
theorem EdgeStep.stays
    {reports : Fin n → ClientSignals}
    (edge : EdgeStep masters proto reports)
    (invariant : OwnerInvariant bus masters proto)
    (before : (proto.driveAt dev).Active)
    (active : (driveOf (reports dev)).Active) :
    (proto.driveAt dev).Holds := by
  have isMaster : masters dev := by
    by_contra notMaster
    exact invariant.bystander dev notMaster before
  obtain ⟨manners, next, shown, _⟩ := edge.next dev isMaster
  generalize driveOf (reports dev) = drive at next active
  cases next with
  | rest _ =>
      exact (Drive.not_active_quiet _ active).elim
  | request _ =>
      exact (Drive.not_active_quiet _ active).elim
  | wait _ =>
      exact (Drive.not_active_quiet _ active).elim
  | start quiet _ =>
      rw [shown] at quiet
      rcases quiet with idle | requesting
      · rw [idle] at before
        exact (Drive.not_active_quiet _ before).elim
      · rw [requesting] at before
        exact (Drive.not_active_quiet _ before).elim
  | proceed owns _ =>
      exact shown ▸ owns.holds
  | settle _ =>
      exact (Drive.not_active_quiet _ active).elim

/-- The protocol after a rising edge and the READY messages that follow it. -/
def edgeResult
    (bus : PciBus n)
    (proto : PciProtocol n)
    (reports : Fin n → ClientSignals) : PciProtocol n :=
  { proto with
    reqN := sampleReqN bus proto.clientSignals
    master := proto.nextMaster
    clientSignals := reports }

theorem sampled_requests
    (requests :
      sampleReqN bus proto.clientSignals (bus.ident dev) = .zero) :
    (proto.driveAt dev).reqN = .zero := by
  rw [sampleReqN_ident, requestLevel_eq_zero] at requests
  simp [driveAt, driveOf, requests]

theorem sampled_of_requesting
    (requesting : proto.driveAt dev = .requesting) :
    sampleReqN bus proto.clientSignals (bus.ident dev) = .zero := by
  rw [sampleReqN_ident, requestLevel_eq_zero]
  have level : (driveOf (proto.clientSignals dev)).reqN = .zero := by
    rw [← driveAt, requesting]
    rfl
  unfold driveOf at level
  cases shape : (proto.clientSignals dev).reqN with
  | none =>
      simp [shape] at level
  | some value =>
      simpa [shape] using level

/-- The rising edge keeps the invariant. -/
theorem OwnerInvariant.edge
    {reports : Fin n → ClientSignals}
    (invariant : OwnerInvariant bus masters proto)
    (edge : EdgeStep masters proto reports) :
    OwnerInvariant bus masters (edgeResult bus proto reports) := by
  refine
    { exclusive := ?_
      bystander := edge.bystander
      proper := ?_
      holder := ?_
      grantee := ?_
      requester := ?_ }
  · intro first second firstActive secondActive
    by_cases firstBefore : (proto.driveAt first).Active
    · have firstHeld := edge.stays invariant firstBefore firstActive
      by_cases secondBefore : (proto.driveAt second).Active
      · exact invariant.exclusive first second firstBefore secondBefore
      · have started := edge.starts invariant secondBefore secondActive
        exact (started.2.2.2.2 first firstHeld).elim
    · have started := edge.starts invariant firstBefore firstActive
      by_cases secondBefore : (proto.driveAt second).Active
      · have secondHeld := edge.stays invariant secondBefore secondActive
        exact (started.2.2.2.2 second secondHeld).elim
      · have startedToo := edge.starts invariant secondBefore secondActive
        exact Option.some.inj (started.2.1.symm.trans startedToo.2.1)
  · intro dev isMaster
    obtain ⟨manners, next, _⟩ := edge.next dev isMaster
    exact next.proper
  · intro dev holds
    by_cases before : (proto.driveAt dev).Active
    · exact .inl (invariant.nextMaster_holder
        (edge.stays invariant before holds.active))
    · obtain ⟨isMaster, granted, _, frames, _⟩ :=
        edge.starts invariant before holds.active
      rcases invariant.grantee dev isMaster granted with
        isOwner | requesting | ⟨framed, _⟩
      · -- A parked start: the owner record names the device already.
        exact .inl (nextMaster_granted isOwner granted)
      · exact .inr ⟨granted, frames, sampled_of_requesting requesting⟩
      · exact (before (.inl (by simp [framed]))).elim
  · intro dev isMaster granted
    rcases invariant.grantee dev isMaster granted with
      isOwner | requesting | ⟨framed, _⟩
    · exact .inl (nextMaster_granted isOwner granted)
    · obtain ⟨manners, next, shown, _⟩ := edge.next dev isMaster
      have requested : manners.shown = .requesting := shown.trans requesting
      right
      change driveOf (reports dev) = _ ∨ (driveOf (reports dev)).frameN = _ ∧ _
      generalize driveOf (reports dev) = drive at next ⊢
      cases next with
      | rest idle =>
          rw [requested] at idle
          cases idle
      | request idle =>
          exact .inl rfl
      | wait _ =>
          exact .inl rfl
      | start _ starts =>
          exact .inr ⟨starts.frames, sampled_of_requesting requesting⟩
      | proceed owns _ =>
          rw [requested] at owns
          exact (Drive.not_holds_quiet _ owns.holds).elim
      | settle released =>
          rw [requested] at released
          cases released
    · exact .inl (invariant.nextMaster_holder (.inl framed))
  · intro dev isMaster requests
    have requesting :=
      (invariant.proper dev isMaster).eq_requesting
        (sampled_requests requests)
    obtain ⟨manners, next, shown, granted, _⟩ := edge.next dev isMaster
    have requested : manners.shown = .requesting := shown.trans requesting
    change _ ∨ driveOf (reports dev) = _
    generalize driveOf (reports dev) = drive at next ⊢
    cases next with
    | rest idle =>
        rw [requested] at idle
        cases idle
    | request _ =>
        exact .inr rfl
    | wait _ =>
        exact .inr rfl
    | start _ starts =>
        exact .inl (granted starts.mayStart.granted)
    | proceed owns _ =>
        rw [requested] at owns
        exact (Drive.not_holds_quiet _ owns.holds).elim
    | settle released =>
        rw [requested] at released
        cases released

/-! ## Rounds -/

/--
The invariant looks at the grant, the owner, the sample and the outputs of the
masters.
-/
theorem OwnerInvariant.congr
    (invariant : OwnerInvariant bus masters proto)
    (sameDrive : ∀ dev, masters dev →
      proto'.driveAt dev = proto.driveAt dev)
    (bystander : ∀ dev, ¬ masters dev → ¬ (proto'.driveAt dev).Active)
    (sameGranted : proto'.granted = proto.granted)
    (sameMaster : proto'.master = proto.master)
    (sameReqN : proto'.reqN = proto.reqN) :
    OwnerInvariant bus masters proto' := by
  have activeMaster : ∀ dev, (proto'.driveAt dev).Active →
      masters dev ∧ proto'.driveAt dev = proto.driveAt dev := by
    intro dev active
    by_cases isMaster : masters dev
    · exact ⟨isMaster, sameDrive dev isMaster⟩
    · exact (bystander dev isMaster active).elim
  refine
    { exclusive := ?_
      bystander := bystander
      proper := ?_
      holder := ?_
      grantee := ?_
      requester := ?_ }
  · intro first second firstActive secondActive
    rw [(activeMaster first firstActive).2] at firstActive
    rw [(activeMaster second secondActive).2] at secondActive
    exact invariant.exclusive first second firstActive secondActive
  · intro dev isMaster
    rw [sameDrive dev isMaster]
    exact invariant.proper dev isMaster
  · intro dev holds
    have same := (activeMaster dev holds.active).2
    rw [same] at holds ⊢
    rw [sameGranted, sameMaster, sameReqN]
    exact invariant.holder dev holds
  · intro dev isMaster
    rw [sameDrive dev isMaster, sameGranted, sameMaster, sameReqN]
    exact invariant.grantee dev isMaster
  · intro dev isMaster
    rw [sameDrive dev isMaster, sameGranted, sameReqN]
    exact invariant.requester dev isMaster

/-- The round of the rising edge samples, tracks and leaves the grant alone. -/
theorem Round.rising
    (round : Round bus proto proto')
    (rising : proto.phase + 1 = 0) :
    proto'.granted = proto.granted ∧
      proto'.master = proto.nextMaster ∧
      proto'.reqN = sampleReqN bus proto.clientSignals := by
  cases round with
  | mk arbitrated _ spec =>
      have notArbitrates :
          (proto.advancePciClock.tracked bus).phase ≠ 1 := by
        rw [tracked_phase, advancePciClock_phase, rising]
        decide
      have trackedShape :
          proto.advancePciClock.tracked bus =
            { proto.advancePciClock with
              reqN := sampleReqN bus proto.clientSignals
              master := proto.nextMaster } := by
        rw [tracked, if_pos (by simpa using rising)]
        rfl
      cases spec with
      | kept _ =>
          rw [trackedShape]
          exact ⟨rfl, rfl, rfl⟩
      | recalled _ arbitrates _ _ _ =>
          exact (notArbitrates arbitrates).elim
      | moved _ _ arbitrates _ _ _ =>
          exact (notArbitrates arbitrates).elim

/-- The owner record stays with a device that drives FRAME# or IRDY# to 0. -/
theorem nextMaster_stays
    {proto : PciProtocol n}
    (isMaster : proto.master = some dev)
    (holds : (proto.driveAt dev).Holds) :
    proto.nextMaster = some dev := by
  have drives :
      proto.frameOf dev = .zero ∨ proto.irdyOf dev = .zero :=
    holds
  unfold nextMaster
  rw [isMaster]
  cases grantedShape : proto.granted with
  | none =>
      have stays :
          ¬ (proto.frameOf dev ≠ .zero ∧ proto.irdyOf dev ≠ .zero) := by
        tauto
      simp [stays]
  | some granted =>
      simp [drives]

/-- Between rising edges the owner record stays as it is. -/
theorem Round.master_between
    {proto proto' : PciProtocol n}
    (round : Round bus proto proto')
    (notRising : proto.phase + 1 ≠ 0) :
    proto'.master = proto.master := by
  cases round with
  | mk arbitrated _ spec =>
      rw [finishRound_master, spec.master_eq, tracked,
        if_neg (by simpa using notRising), advancePciClock_master]

/-- In the other phases the outputs stay and the grant may move. -/
theorem OwnerInvariant.between
    (invariant : OwnerInvariant bus masters proto)
    (round : Round bus proto proto')
    (notRising : proto.phase + 1 ≠ 0) :
    OwnerInvariant bus masters proto' := by
  cases round with
  | mk arbitrated _ spec =>
      have trackedShape :
          proto.advancePciClock.tracked bus = proto.advancePciClock := by
        rw [tracked, if_neg (by simpa using notRising)]
      rw [trackedShape] at spec
      have advanced :
          OwnerInvariant bus masters proto.advancePciClock :=
        invariant.congr (fun _ _ => rfl) invariant.bystander rfl rfl rfl
      have moved := advanced.arbitrated spec
      exact moved.congr (fun _ _ => rfl) moved.bystander rfl rfl rfl

end PciProtocol

/-! ## Runs of the lockstep system -/

/-- What holds whenever every client waits for its next UNTIL. -/
structure LockstepInvariant
    (bus : PciBus n)
    (masters : Fin n → Prop)
    (sys : Lockstep n) : Prop where
  grant : GrantInvariant bus sys.proto
  owner : OwnerInvariant bus masters sys.proto
  pcixcap : ∀ dev, (sys.proto.sendSignals dev).pcixcap = .zero
  ready : ∀ dev, ∃ report,
    (sys.clients dev).ready = some report ∧
      driveOf report = sys.proto.driveAt dev
  wellMannered : ∀ dev, masters dev →
    ∃ manners, WellMannered (sys.clients dev) manners ∧
      manners.phase = sys.proto.phase
  bystander : ∀ dev, ¬ masters dev → Bystander (sys.clients dev)

variable {masters : Fin n → Prop}

/-- What a bystander reports does not drive FRAME# or IRDY#. -/
theorem Bystander.not_active
    {client : BusClient}
    {report : ClientSignals}
    (bystander : Bystander client)
    (ready : client.ready = some report) :
    ¬ (driveOf report).Active := by
  unfold BusClient.ready at ready
  split at ready
  · rename_i state _
    rw [Option.some.injEq] at ready
    exact ready ▸ bystander state
  · cases ready

/-- Before the first round a master is idle or requests. -/
theorem Manners.initial_quiet
    {drive : Drive}
    (allows : Manners.initial.Allows drive) :
    ∃ reqN, drive = .quiet reqN := by
  have next : Manners.initial.Next drive := allows
  cases next with
  | rest _ =>
      exact ⟨_, rfl⟩
  | request _ =>
      exact ⟨_, rfl⟩
  | wait _ =>
      exact ⟨_, rfl⟩
  | start _ starts =>
      cases starts.mayStart.granted
  | proceed owns _ =>
      exact (Drive.not_holds_quiet _ owns.holds).elim
  | settle _ =>
      exact ⟨_, rfl⟩

/-- Assembling the bus overwrites only outputs that are released anyway. -/
theorem driveAt_runInit
    {reports : Fin n → ClientSignals}
    (quiet : ¬ (driveOf (reports dev)).Active) :
    (runInit bus reports).driveAt dev = driveOf (reports dev) := by
  have frame : (reports dev).bi.frameN = .z := by
    by_contra drives
    exact quiet (.inl drives)
  have irdy : (reports dev).bi.irdyN = .z := by
    by_contra drives
    exact quiet (.inr drives)
  simp only [driveAt, driveOf, runInit, frame, irdy]
  rfl

theorem Lockstep.start_invariant
    {clients : Fin n → BusClient}
    (conventional : bus.pcixcap = .zero)
    (wellMannered : ∀ dev, masters dev →
      WellMannered (clients dev) Manners.initial)
    (bystanders : ∀ dev, ¬ masters dev → Bystander (clients dev))
    {sys : Lockstep n}
    (started : Lockstep.start bus clients = some sys) :
    LockstepInvariant bus masters sys := by
  obtain ⟨reports, ready, rfl⟩ := Lockstep.start_eq_some started
  have quiet : ∀ dev, ¬ (driveOf (reports dev)).Active := by
    intro dev
    by_cases isMaster : masters dev
    · obtain ⟨reqN, shape⟩ := Manners.initial_quiet
        ((wellMannered dev isMaster).allows (ready dev))
      rw [shape]
      exact Drive.not_active_quiet reqN
    · exact (bystanders dev isMaster).not_active (ready dev)
  have sameDrive : ∀ dev,
      (runInit bus reports).driveAt dev = driveOf (reports dev) :=
    fun dev => driveAt_runInit (quiet dev)
  refine
    { grant := runInit_grantInvariant bus reports
      owner :=
        { exclusive := ?_
          bystander := ?_
          proper := ?_
          holder := ?_
          grantee := ?_
          requester := ?_ }
      pcixcap := fun _ => conventional
      ready := fun dev => ⟨reports dev, ready dev, (sameDrive dev).symm⟩
      wellMannered := fun dev isMaster =>
        ⟨.initial, wellMannered dev isMaster, rfl⟩
      bystander := bystanders }
  · intro first _ firstActive
    rw [sameDrive] at firstActive
    exact (quiet first firstActive).elim
  · intro dev _
    rw [sameDrive]
    exact quiet dev
  · intro dev isMaster
    rw [sameDrive]
    have allows := (wellMannered dev isMaster).allows (ready dev)
    have next : Manners.initial.Next (driveOf (reports dev)) := allows
    exact next.proper
  · intro dev holds
    rw [sameDrive] at holds
    exact (quiet dev holds.active).elim
  · intro dev _ granted
    cases granted
  · intro dev _ requests
    cases requests

theorem LockstepInvariant.replied_bystander
    {sys : Lockstep n}
    (invariant : LockstepInvariant bus masters sys)
    {proto : PciProtocol n}
    (notMaster : ¬ masters dev) :
    Bystander (sys.replied proto dev) :=
  invariant.bystander dev notMaster

/-- The etiquette of a master through a round. -/
theorem LockstepInvariant.replied_manners
    {sys : Lockstep n}
    (invariant : LockstepInvariant bus masters sys)
    {proto : PciProtocol n}
    (round : Round bus sys.proto proto)
    (isMaster : masters dev) :
    ∃ manners : Manners,
      WellMannered (sys.replied proto dev) manners ∧
        manners.phase = sys.proto.phase + 1 ∧
        manners.shown = sys.proto.driveAt dev ∧
        manners.gntN = (proto.sendSignals dev).gntN ∧
        manners.frameN = (proto.sendSignals dev).bi.frameN ∧
        manners.irdyN = (proto.sendSignals dev).bi.irdyN := by
  obtain ⟨manners, wellMannered, phase⟩ :=
    invariant.wellMannered dev isMaster
  obtain ⟨report, reported, sameDrive⟩ := invariant.ready dev
  have conventional : Conventional manners (proto.sendSignals dev) :=
    { pciClk := by rw [round.pciClk_eq, phase]
      pcixcap := by rw [round.pcixcap_eq, invariant.pcixcap] }
  refine ⟨_, wellMannered.reply reported conventional, ?_, sameDrive,
    rfl, rfl, rfl⟩
  rw [Manners.after, phase]

/-- The READY messages after a rising edge follow the etiquette. -/
theorem LockstepInvariant.edgeStep
    {sys : Lockstep n}
    (invariant : LockstepInvariant bus masters sys)
    {proto : PciProtocol n}
    (round : Round bus sys.proto proto)
    (rising : sys.proto.phase + 1 = 0)
    {reports : Fin n → ClientSignals}
    (ready : ∀ dev, (sys.replied proto dev).ready = some (reports dev)) :
    EdgeStep masters sys.proto reports where
  bystander := fun dev notMaster =>
    (invariant.replied_bystander notMaster).not_active (ready dev)
  next := fun dev isMaster => by
    obtain ⟨manners, wellMannered, phase, shown, granted, frame, irdy⟩ :=
      invariant.replied_manners round isMaster
    have allows := wellMannered.allows (ready dev)
    rw [Manners.Allows, phase, if_pos rising] at allows
    refine ⟨manners, allows, shown, ?_, _, round.bi_eq dev, frame, irdy⟩
    intro zero
    have grantExact := round.grantExact invariant.grant.grantExact dev
    rw [(round.rising rising).1, ← granted] at grantExact
    exact grantExact.mp zero

/-- Between rising edges a master keeps its outputs. -/
theorem LockstepInvariant.driveAt_between
    {sys : Lockstep n}
    (invariant : LockstepInvariant bus masters sys)
    {proto : PciProtocol n}
    (round : Round bus sys.proto proto)
    (notRising : sys.proto.phase + 1 ≠ 0)
    (isMaster : masters dev)
    {report : ClientSignals}
    (ready : (sys.replied proto dev).ready = some report) :
    driveOf report = sys.proto.driveAt dev := by
  obtain ⟨manners, wellMannered, phase, shown, _⟩ :=
    invariant.replied_manners round isMaster
  have allows := wellMannered.allows ready
  rw [Manners.Allows, phase, if_neg notRising] at allows
  exact allows.trans shown

theorem Lockstep.step_invariant
    {sys sys' : Lockstep n}
    {random : Nat}
    (invariant : LockstepInvariant bus masters sys)
    (stepped : sys.step bus random = some sys') :
    LockstepInvariant bus masters sys' := by
  obtain ⟨proto, reports, success, ready, rfl⟩ :=
    Lockstep.step_eq_some stepped
  have round := round_of_runRun invariant.grant.attached success
  refine
    { grant := (invariant.grant.round round).report reports
      owner := ?_
      pcixcap := fun dev => by
        rw [round.pcixcap_eq, invariant.pcixcap]
      ready := fun dev => ⟨reports dev, ready dev, rfl⟩
      wellMannered := ?_
      bystander := fun dev notMaster =>
        invariant.replied_bystander notMaster }
  · by_cases rising : sys.proto.phase + 1 = 0
    · obtain ⟨granted, master, reqN⟩ := round.rising rising
      have edge :=
        invariant.owner.edge (invariant.edgeStep round rising ready)
      exact edge.congr (fun _ _ => rfl) edge.bystander granted master reqN
    · refine (invariant.owner.between round rising).congr ?_ ?_ rfl rfl rfl
      · intro dev isMaster
        have kept :=
          invariant.driveAt_between round rising isMaster (ready dev)
        rw [driveAt, driveAt, round.clientSignals_eq]
        exact kept
      · intro dev notMaster
        exact (invariant.replied_bystander notMaster).not_active (ready dev)
  · intro dev isMaster
    obtain ⟨manners, wellMannered, phase, _⟩ :=
      invariant.replied_manners round isMaster
    exact ⟨manners, wellMannered, phase.trans round.phase_eq.symm⟩

end Simbus.Pci
