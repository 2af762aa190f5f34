import Simbus.Pci.Exclusion

/-!
# Lingering grants

When nobody requests the bus, the arbiter leaves the grant of a master or takes
it back at random.  The mean time is `gnt_linger`, by which the random number is
divided.
-/

namespace Simbus.Pci

open FourValued PciProtocol

variable {n : Nat}
variable {bus : PciBus n}

/-! ## When a round divides by zero -/

namespace PciProtocol

variable {proto proto' : PciProtocol n}
variable {random : Nat}

/-- A master holds the bus with its grant, and nobody requests. -/
structure IdleGrant (proto : PciProtocol n) : Prop where
  arbitrates : proto.phase = 1
  idle : ∀ idx, proto.reqN idx ≠ .zero
  owned : proto.master.isSome
  held : proto.granted.isSome

theorem recallGrant_divides_iff :
    proto.recallGrant bus random = .error .divideByZero ↔
      bus.gntLinger = 0 ∧ bus.parkMode ≠ .last ∧ proto.master.isSome ∧
        proto.granted.isSome := by
  unfold recallGrant
  cases master : proto.master with
  | none =>
      simp
  | some owner =>
      cases granted : proto.granted with
      | none =>
          simp
      | some grantee =>
          by_cases parks : bus.parkMode = .last
          · simp [parks]
          · by_cases lingers : bus.gntLinger = 0
            · simp [parks, lingers]
            · simp only [parks, lingers, ne_eq, not_false_eq_true, if_true,
                if_false, false_and, iff_false]
              split <;> simp

theorem moveGrant_not_divides :
    proto.moveGrant bus random ≠ .error .divideByZero := by
  unfold moveGrant
  split
  · simp
  · split_ifs
    · simp
    · split <;> simp

theorem arbitrate_divides_iff :
    proto.arbitrate bus random = .error .divideByZero ↔
      bus.gntLinger = 0 ∧ bus.parkMode ≠ .last ∧ IdleGrant proto := by
  unfold arbitrate
  split_ifs with early idle holds
  · simp only [false_iff]
    exact fun divides => early divides.2.2.arbitrates
  · rw [recallGrant_divides_iff]
    have arbitrates := not_not.mp early
    constructor
    · rintro ⟨lingers, parks, owned, held⟩
      exact ⟨lingers, parks, arbitrates, countRequests_eq_zero.mp idle, owned, held⟩
    · rintro ⟨lingers, parks, idleGrant⟩
      exact ⟨lingers, parks, idleGrant.owned, idleGrant.held⟩
  · simp only [false_iff]
    exact fun divides => idle (countRequests_eq_zero.mpr divides.2.2.idle)
  · refine iff_of_false moveGrant_not_divides fun divides => ?_
    exact idle (countRequests_eq_zero.mpr divides.2.2.idle)

theorem runRun_divides_iff :
    proto.runRun bus random = .error .divideByZero ↔
      bus.gntLinger = 0 ∧ bus.parkMode ≠ .last ∧
        IdleGrant (proto.advancePciClock.tracked bus) := by
  have arbitrates : (proto.advancePciClock.tracked bus).arbitrate bus random =
      .error .divideByZero ↔ _ :=
    arbitrate_divides_iff
  rw [← arbitrates]
  simp only [runRun, trackReqN_eq, bind, Except.bind]
  cases (proto.advancePciClock.tracked bus).arbitrate bus random with
  | error fault =>
      simp
  | ok arbitrated =>
      simp [pure, Except.pure]

/-- A grant is taken back for nobody else just while nobody requests. -/
theorem Round.withdraws
    (round : Round bus proto proto')
    {grantee : Fin n}
    (granted : proto.granted = some grantee)
    (withdrawn : proto'.granted = none) :
    bus.parkMode ≠ .last ∧ ∀ idx, proto'.reqN idx ≠ .zero := by
  cases round with
  | mk arbitrated resetN spec =>
      rw [finishRound_granted] at withdrawn
      rw [finishRound_reqN, spec.reqN_eq]
      cases spec with
      | kept _ =>
          rw [tracked_granted, advancePciClock_granted, granted] at withdrawn
          cases withdrawn
      | recalled _ _ idle _ parks =>
          exact ⟨parks, idle⟩
      | moved _ newDev _ _ _ _ =>
          unfold giveGrant at withdrawn
          split at withdrawn <;> cases withdrawn

/-- Between arbitrations the grant stays. -/
theorem Round.granted_between
    (round : Round bus proto proto')
    (between : proto.phase + 1 ≠ 1) :
    proto'.granted = proto.granted := by
  cases round with
  | mk arbitrated resetN spec =>
      have notArbitrates : (proto.advancePciClock.tracked bus).phase ≠ 1 := by
        rw [tracked_phase]
        exact between
      rw [finishRound_granted]
      cases spec with
      | kept _ =>
          exact tracked_granted
      | recalled _ arbitrates _ _ _ =>
          exact (notArbitrates arbitrates).elim
      | moved _ _ arbitrates _ _ _ =>
          exact (notArbitrates arbitrates).elim

/-- The arbiter grants the only device that requests. -/
theorem Round.grants
    (round : Round bus proto proto')
    (arbitrates : proto.phase + 1 = 1)
    {dev : Fin n}
    (requests : proto.reqN (bus.ident dev) = .zero)
    (alone : ∀ idx, proto.reqN idx = .zero → idx = bus.ident dev) :
    proto'.granted = some dev := by
  have sampled : (proto.advancePciClock.tracked bus).reqN = proto.reqN := by
    rw [tracked, if_neg (by rw [advancePciClock_phase, arbitrates]; decide)]
    rfl
  cases round with
  | mk arbitrated resetN spec =>
      rw [finishRound_granted]
      cases spec with
      | kept stays =>
          obtain idle | ⟨grantee, granted, holds⟩ := stays (by simpa using arbitrates)
          · exact (idle _ (sampled ▸ requests)).elim
          · have isDev : grantee = dev :=
              bus.identInjective (alone _ (sampled ▸ holds))
            rw [granted, isDev]
      | recalled _ _ idle _ _ =>
          exact (idle _ (sampled ▸ requests)).elim
      | moved start newDev _ _ newRequests _ =>
          have isDev : newDev = dev :=
            bus.identInjective (alone _ (sampled ▸ newRequests))
          subst isDev
          unfold giveGrant
          split <;> rfl

/-- The grantee that drives FRAME# owns the bus, if nobody else drives. -/
theorem nextMaster_of_alone
    {dev : Fin n}
    (granted : proto.granted = some dev)
    (drives : proto.frameOf dev = .zero)
    (silent : ∀ other, other ≠ dev →
      proto.frameOf other ≠ .zero ∧ proto.irdyOf other ≠ .zero) :
    proto.nextMaster = some dev := by
  unfold nextMaster
  rw [granted]
  cases master : proto.master with
  | none =>
      simp [drives]
  | some owner =>
      by_cases same : owner = dev
      · simp [same]
      · simp [same, silent owner same]

end PciProtocol

/-! ## Runs -/

/--
In a run no step divides by zero, and a grant that nobody takes over goes back
only if the bus does not park and nobody requests it.
-/
structure LingersSafely
    (bus : PciBus n)
    (input : ServerInput n) : Prop where
  divides : ∀ step, serverRun bus input step ≠ .error .divideByZero
  withdraws : ∀ step before after grantee,
    serverRun bus input step = .ok before →
      serverRun bus input (step + 1) = .ok after →
        before.granted = some grantee → after.granted = none →
          bus.parkMode ≠ .last ∧ ∀ idx, after.reqN idx ≠ .zero

theorem serverRun_withdraws
    (input : ServerInput n)
    {step : Nat}
    {before after : PciProtocol n}
    {grantee : Fin n}
    (reached : serverRun bus input step = .ok before)
    (success : serverRun bus input (step + 1) = .ok after)
    (granted : before.granted = some grantee)
    (withdrawn : after.granted = none) :
    bus.parkMode ≠ .last ∧ ∀ idx, after.reqN idx ≠ .zero := by
  have attached :=
    ((serverRun_grantInvariant reached).report (input.inputs step)).attached
  rw [serverRun, reached] at success
  exact (round_of_runRun attached success).withdraws granted withdrawn

theorem serverRun_not_divides
    (input : ServerInput n)
    (lingers : bus.gntLinger ≠ 0 ∨ bus.parkMode = .last ∨ n = 0)
    (step : Nat) :
    serverRun bus input step ≠ .error .divideByZero := by
  induction step with
  | zero =>
      simp [serverRun]
  | succ step inductionHypothesis =>
      intro divides
      cases before : serverRun bus input step with
      | error fault =>
          rw [serverRun, before] at divides
          cases divides
          exact inductionHypothesis before
      | ok proto =>
          rw [serverRun, before] at divides
          obtain ⟨zero, parks, idleGrant⟩ := runRun_divides_iff.mp divides
          obtain nonzero | last | noDevices := lingers
          · exact nonzero zero
          · exact parks last
          · obtain ⟨owner, -⟩ := Option.isSome_iff_exists.mp idleGrant.owned
            exact absurd owner.isLt (by omega)

/-! ## A run to the division -/

/--
One device requests the bus for two clocks and drives FRAME# beyond them, the
others are silent.
-/
def lingerer (dev : Fin n) : ServerInput n where
  reported := fun _ => ⟨none, none, fun _ => none, BiSignals.released⟩
  inputs := fun step other =>
    if other = dev then
      { resetN := none
        reqN := if step < 7 then some .zero else none
        intN := fun _ => none
        bi := { BiSignals.released with frameN := .zero } }
    else
      ⟨none, none, fun _ => none, BiSignals.released⟩
  random := fun _ => 0

section Lingerer

variable {dev : Fin n}

theorem sampleReqN_lingerer
    {step : Nat}
    {idx : Fin 16} :
    sampleReqN bus ((lingerer dev).inputs step) idx = .zero ↔
      idx = bus.ident dev ∧ step < 7 := by
  constructor
  · intro requests
    obtain ⟨other, rfl⟩ := exists_ident_of_sampleReqN requests
    rw [sampleReqN_ident, requestLevel_eq_zero] at requests
    by_cases isDev : other = dev
    · subst isDev
      by_cases early : step < 7
      · exact ⟨rfl, early⟩
      · simp [lingerer, early] at requests
    · simp [lingerer, isDev] at requests
  · rintro ⟨rfl, early⟩
    rw [sampleReqN_ident, requestLevel_eq_zero]
    simp [lingerer, early]

/-- A run without the division goes on by rounds. -/
theorem serverRun_next
    {input : ServerInput n}
    (safe : ∀ step, serverRun bus input step ≠ .error .divideByZero)
    {step : Nat}
    {proto : PciProtocol n}
    (reached : serverRun bus input step = .ok proto) :
    ∃ proto', serverRun bus input (step + 1) = .ok proto' ∧
      Round bus { proto with clientSignals := input.inputs step } proto' := by
  have attached :=
    ((serverRun_grantInvariant reached).report (input.inputs step)).attached
  have next : serverRun bus input (step + 1) =
      PciProtocol.runRun bus (input.random step)
        { proto with clientSignals := input.inputs step } := by
    rw [serverRun, reached]
    rfl
  obtain ⟨proto', success, round⟩ | ⟨-, failure⟩ :=
    runRun_spec attached (input.random step)
  · exact ⟨proto', next.trans success, round⟩
  · exact (safe (step + 1) (next.trans failure)).elim

/-- The phase goes around every four rounds. -/
theorem serverRun_phase
    {input : ServerInput n}
    (safe : ∀ step, serverRun bus input step ≠ .error .divideByZero)
    (step : Nat) :
    ∃ proto, serverRun bus input step = .ok proto ∧
      proto.phase.val = step % 4 := by
  induction step with
  | zero =>
      exact ⟨_, rfl, rfl⟩
  | succ step inductionHypothesis =>
      obtain ⟨proto, reached, phase⟩ := inductionHypothesis
      obtain ⟨proto', reached', round⟩ := serverRun_next safe reached
      refine ⟨proto', reached', ?_⟩
      rw [round.phase_eq, Fin.val_add]
      change (proto.phase.val + 1) % 4 = _
      omega

/-- The grantee gives up its request and keeps the bus, with nobody else there. -/
theorem lingerer_divides
    (zero : bus.gntLinger = 0)
    (parks : bus.parkMode ≠ .last)
    (dev : Fin n) :
    ∃ step, serverRun bus (lingerer dev) step = .error .divideByZero := by
  by_contra never
  have safe : ∀ step,
      serverRun bus (lingerer dev) step ≠ .error .divideByZero :=
    not_exists.mp never
  obtain ⟨proto3, reached3, phase3⟩ := serverRun_phase safe 3
  obtain ⟨proto4, reached4, round3⟩ := serverRun_next safe reached3
  obtain ⟨proto5, reached5, round4⟩ := serverRun_next safe reached4
  obtain ⟨proto6, reached6, round5⟩ := serverRun_next safe reached5
  obtain ⟨proto7, reached7, round6⟩ := serverRun_next safe reached6
  obtain ⟨proto8, reached8, round7⟩ := serverRun_next safe reached7
  have isPhase3 : proto3.phase = 3 := Fin.ext phase3
  have isPhase4 : proto4.phase = 0 := by
    rw [round3.phase_eq, isPhase3]
    rfl
  have isPhase5 : proto5.phase = 1 := by
    rw [round4.phase_eq, isPhase4]
    rfl
  have isPhase6 : proto6.phase = 2 := by
    rw [round5.phase_eq, isPhase5]
    rfl
  have isPhase7 : proto7.phase = 3 := by
    rw [round6.phase_eq, isPhase6]
    rfl
  have isPhase8 : proto8.phase = 0 := by
    rw [round7.phase_eq, isPhase7]
    rfl
  -- The request is sampled at the edge of the fourth round and then granted.
  obtain ⟨-, -, sampled4⟩ := round3.rising (by
    change proto3.phase + 1 = 0
    rw [isPhase3]
    rfl)
  have granted5 : proto5.granted = some dev := by
    refine round4.grants ?_ ?_ ?_
    · change proto4.phase + 1 = 1
      rw [isPhase4]
      rfl
    · change proto4.reqN _ = .zero
      rw [sampled4]
      exact sampleReqN_lingerer.mpr ⟨rfl, by decide⟩
    · intro idx requests
      change proto4.reqN idx = .zero at requests
      rw [sampled4] at requests
      exact (sampleReqN_lingerer.mp requests).1
  have granted6 : proto6.granted = some dev :=
    (round5.granted_between (by
      change proto5.phase + 1 ≠ 1
      rw [isPhase5]
      decide)).trans granted5
  have granted7 : proto7.granted = some dev :=
    (round6.granted_between (by
      change proto6.phase + 1 ≠ 1
      rw [isPhase6]
      decide)).trans granted6
  -- At the next edge the device owns the bus and has stopped requesting.
  obtain ⟨granted8, master8, sampled8⟩ := round7.rising (by
    change proto7.phase + 1 = 0
    rw [isPhase7]
    rfl)
  have owned8 : proto8.master = some dev := by
    rw [master8]
    refine nextMaster_of_alone granted7 ?_ ?_
    · simp [frameOf, lingerer]
    · intro other apart
      simp [frameOf, irdyOf, lingerer, apart, BiSignals.released,
        BiSignals.ofBits]
  have idle8 (idx : Fin 16) : proto8.reqN idx ≠ .zero := by
    rw [sampled8]
    exact fun requests => absurd (sampleReqN_lingerer.mp requests).2 (by decide)
  have divides : serverRun bus (lingerer dev) 9 = .error .divideByZero := by
    rw [serverRun, reached8]
    refine runRun_divides_iff.mpr ⟨zero, parks, ?_⟩
    have between : ¬ ({ proto8 with clientSignals := (lingerer dev).inputs 8 } :
        PciProtocol n).advancePciClock.phase = 0 := by
      change ¬ proto8.phase + 1 = 0
      rw [isPhase8]
      decide
    rw [tracked, if_neg between]
    exact
      { arbitrates := by
          change proto8.phase + 1 = 1
          rw [isPhase8]
          rfl
        idle := idle8
        owned := by
          change proto8.master.isSome = true
          rw [owned8]
          rfl
        held := by
          change proto8.granted.isSome = true
          rw [granted8.trans granted7]
          rfl }
  exact safe 9 divides

end Lingerer

/--
Every run of a bus is safe exactly if `gnt_linger` is not zero or the grant is
parked, but for a bus without devices.
-/
theorem lingersSafely_iff
    (bus : PciBus n) :
    (∀ input, LingersSafely bus input) ↔
      bus.gntLinger ≠ 0 ∨ bus.parkMode = .last ∨ n = 0 := by
  constructor
  · intro safe
    by_contra withoutLinger
    push Not at withoutLinger
    obtain ⟨zero, parks, someDevice⟩ := withoutLinger
    obtain ⟨step, divides⟩ :=
      lingerer_divides zero parks ⟨0, Nat.pos_of_ne_zero someDevice⟩
    exact (safe _).divides step divides
  · intro lingers input
    exact
      { divides := serverRun_not_divides input lingers
        withdraws := fun _ _ _ _ reached success granted withdrawn =>
          serverRun_withdraws input reached success granted withdrawn }

/-- The pair of devices without lingering, as the protocol document allows. -/
def unlingering : PciBus 2 :=
  { pairBus with gntLinger := 0 }

theorem unlingering_divides :
    ¬ ∀ (bus : PciBus 2) (input : ServerInput 2), LingersSafely bus input := by
  intro claimed
  obtain ⟨step, divides⟩ := lingerer_divides
    (rfl : unlingering.gntLinger = 0) (by decide) 1
  exact (claimed unlingering (lingerer 1)).divides step divides

end Simbus.Pci
