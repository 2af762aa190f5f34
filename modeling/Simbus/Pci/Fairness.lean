import Simbus.Pci.Grant

/-!
# Fairness of the PCI arbiter

While the grantee keeps requesting it keeps the grant, and while some device
waits the grant walks around the ring of identifiers toward it.  The clients
are arbitrary.
-/

namespace Simbus.Pci

open FourValued PciProtocol

variable {n : Nat}
variable {bus : PciBus n}

/-! ## What one round does to the grant -/

namespace PciProtocol

variable {proto proto' : PciProtocol n}

/-- A round that arbitrates uses the requests sampled before it. -/
theorem tracked_reqN
    (notRising : proto.phase ≠ 0) :
    (proto.tracked bus).reqN = proto.reqN := by
  simp [tracked, notRising]

/-- A grantee whose last sample requests keeps the grant. -/
theorem Round.keeps_requesting
    (round : Round bus proto proto')
    {grantee : Fin n}
    (granted : proto.granted = some grantee)
    (requests : proto.reqN (bus.ident grantee) = .zero) :
    proto'.granted = some grantee := by
  cases round with
  | mk arbitrated _ spec =>
      rw [finishRound_granted]
      have sampled :
          proto.advancePciClock.phase = 1 →
            (proto.advancePciClock.tracked bus).reqN
              (bus.ident grantee) = .zero := by
        intro arbitrates
        rw [tracked_reqN (by rw [arbitrates]; decide)]
        exact requests
      cases spec with
      | kept _ =>
          simpa using granted
      | recalled _ arbitrates idle _ _ =>
          exact (idle _ (sampled (by simpa using arbitrates))).elim
      | moved _ _ arbitrates granteeIdle _ _ =>
          have idle := (granteeIdle grantee (by simpa using granted)).2
          exact (idle (sampled (by simpa using arbitrates))).elim

/--
While `waiting` requests, a grant that moves goes to a device nearer to
`waiting` on the ring, and it is not recalled.
-/
theorem Round.approaches
    (round : Round bus proto proto')
    {grantee waiting : Fin n}
    (granted : proto.granted = some grantee)
    (requests : proto.reqN (bus.ident waiting) = .zero) :
    ∃ next, proto'.granted = some next ∧
      (next = grantee ∨
        Cyclic.distance (bus.ident next) (bus.ident waiting) <
          Cyclic.distance (bus.ident grantee) (bus.ident waiting)) := by
  cases round with
  | mk arbitrated _ spec =>
      rw [finishRound_granted]
      have sampled :
          proto.advancePciClock.phase = 1 →
            (proto.advancePciClock.tracked bus).reqN =
              proto.reqN := by
        intro arbitrates
        exact tracked_reqN (by rw [arbitrates]; decide)
      cases spec with
      | kept _ =>
          exact ⟨grantee, by simpa using granted, .inl rfl⟩
      | recalled _ arbitrates idle _ _ =>
          rw [tracked_phase] at arbitrates
          rw [sampled arbitrates] at idle
          exact (idle _ requests).elim
      | moved start newDev arbitrates granteeIdle newRequests nearest =>
          rw [tracked_phase] at arbitrates
          rw [sampled arbitrates] at granteeIdle newRequests nearest
          obtain ⟨startShape, idle⟩ :=
            granteeIdle grantee (by simpa using granted)
          subst startShape
          have apart :
              ∀ dev, proto.reqN (bus.ident dev) = .zero →
                bus.ident dev ≠ bus.ident grantee := by
            intro dev devRequests same
            exact idle (same ▸ devRequests)
          have notPast :
              Cyclic.distance (bus.ident grantee) (bus.ident newDev) ≤
                Cyclic.distance (bus.ident grantee) (bus.ident waiting) := by
            rw [Cyclic.distance_succ (apart newDev newRequests),
              Cyclic.distance_succ (apart waiting requests)]
            exact Nat.succ_le_succ (nearest _ requests)
          refine ⟨newDev, ?_, .inr
            (Cyclic.distance_lt_of_move (apart newDev newRequests) notPast)⟩
          unfold giveGrant
          split <;> rfl

end PciProtocol

/-! ## Runs -/

/-- The states of a run up to a last step. -/
def Reaches
    (bus : PciBus n)
    (input : ServerInput n)
    (states : Nat → PciProtocol n)
    (last : Nat) : Prop :=
  ∀ step, step ≤ last → serverRun bus input step = .ok (states step)

/-- Consecutive states of a run are one round apart. -/
theorem Reaches.round
    {input : ServerInput n}
    {states : Nat → PciProtocol n}
    {last step : Nat}
    (reaches : Reaches bus input states last)
    (inside : step < last) :
    Round bus
      { states step with clientSignals := input.inputs step }
      (states (step + 1)) := by
  obtain ⟨before, reached, success⟩ :=
    serverRun_succ (reaches (step + 1) inside)
  rw [reaches step (by omega), Except.ok.injEq] at reached
  subst reached
  have invariant :=
    (serverRun_grantInvariant (reaches step (by omega))).report
      (input.inputs step)
  exact round_of_runRun invariant.attached success

/-- The grant goes to the device in the step after `step`. -/
def Receives
    (states : Nat → PciProtocol n)
    (dev : Fin n)
    (step : Nat) : Prop :=
  (states step).granted ≠ some dev ∧
    (states (step + 1)).granted = some dev

section Run

variable {input : ServerInput n}
variable {states : Nat → PciProtocol n}
variable {last : Nat}

/-- A grantee that keeps requesting keeps the grant over a whole run. -/
theorem Reaches.grant_stays
    (reaches : Reaches bus input states last)
    {grantee : Fin n}
    {first step : Nat}
    (granted : (states first).granted = some grantee)
    (requests : ∀ time, first ≤ time → time < step →
      (states time).reqN (bus.ident grantee) = .zero)
    (ordered : first ≤ step)
    (bounded : step ≤ last) :
    (states step).granted = some grantee := by
  induction step, ordered using Nat.le_induction with
  | base =>
      exact granted
  | succ step ordered inductionHypothesis =>
      have grantedNow :=
        inductionHypothesis
          (fun time lower upper => requests time lower (by omega)) (by omega)
      exact (reaches.round (by omega)).keeps_requesting grantedNow
        (requests step ordered (by omega))

/-- While a device waits, the grant approaches it. -/
theorem Reaches.approaches
    (reaches : Reaches bus input states last)
    {waiting : Fin n}
    {first : Nat}
    (requests : ∀ time, first ≤ time → time < last →
      (states time).reqN (bus.ident waiting) = .zero) :
    Cyclic.Approaches
      (fun time => (states time).granted)
      (fun dev => Cyclic.distance (bus.ident dev) (bus.ident waiting))
      first last := by
  intro time lower upper grantee granted
  exact (reaches.round upper).approaches granted
    (requests time lower upper)

/--
Fairness of the arbiter.  A grantee that keeps requesting keeps the grant;
while a device keeps requesting without holding the grant, every move of the
grant brings it closer to that device, the grant is not recalled, and nobody
gets it back or receives it twice.
-/
theorem serverRun_fair
    (reaches : Reaches bus input states last) :
    (∀ (grantee : Fin n) (first step : Nat),
        first ≤ step → step ≤ last →
        (states first).granted = some grantee →
        (∀ time, first ≤ time → time < step →
          (states time).reqN (bus.ident grantee) = .zero) →
        (states step).granted = some grantee) ∧
      ∀ (waiting : Fin n) (first final : Nat),
        final ≤ last →
        (∀ time, first ≤ time → time < final →
          (states time).reqN (bus.ident waiting) = .zero ∧
            (states time).granted ≠ some waiting) →
        (∀ step, first ≤ step → step < final →
          ∀ grantee, (states step).granted = some grantee →
            ∃ next, (states (step + 1)).granted = some next ∧
              (next = grantee ∨
                Cyclic.distance (bus.ident next) (bus.ident waiting) <
                  Cyclic.distance (bus.ident grantee)
                    (bus.ident waiting))) ∧
        (∀ (other : Fin n) (early middle late : Nat),
          first ≤ early → early ≤ middle → middle ≤ late → late ≤ final →
          (states early).granted = some other →
          (states middle).granted ≠ some other →
          (states late).granted ≠ some other) ∧
        ∀ (other : Fin n) (early late : Nat),
          first ≤ early → early < late → late < final →
          Receives states other early →
          ¬ Receives states other late := by
  refine ⟨fun grantee first step ordered bounded granted requests =>
    reaches.grant_stays granted requests ordered bounded, ?_⟩
  intro waiting first final bounded waits
  have reachesFinal : Reaches bus input states final :=
    fun step inside => reaches step (Nat.le_trans inside bounded)
  have approaches := reachesFinal.approaches
    fun time lower upper => (waits time lower upper).1
  refine ⟨fun step lower upper grantee granted =>
    approaches step lower upper grantee granted,
    fun other early middle late lower ordered later upper granted lost =>
      approaches.no_return granted lower ordered lost later upper, ?_⟩
  intro other early late lower ordered upper received receivedAgain
  exact approaches.no_return received.2 (by omega) (by omega : early + 1 ≤ late)
    receivedAgain.1 (by omega : late ≤ late + 1) (by omega) receivedAgain.2

end Run

/-- The states of the run in which both devices of a small bus request. -/
def pairStates (step : Nat) : PciProtocol 2 :=
  match serverRun pairBus pairRequests step with
  | .ok proto => proto
  | .error _ => runInit pairBus pairRequests.reported

theorem pairStates_reaches
    (last : Nat) :
    Reaches pairBus pairRequests pairStates last := by
  intro step _
  have lingers : 0 < pairBus.gntLinger := by
    decide
  obtain ⟨proto, reached⟩ := serverRun_survives lingers pairRequests step
  rw [pairStates, reached]

/-- The first grantee keeps the grant, and the other device receives it once. -/
theorem pairStates_fair :
    Reaches pairBus pairRequests pairStates 13 ∧
      (pairStates 13).granted = some 0 ∧
      ¬ Receives pairStates 0 8 := by
  have fair := serverRun_fair (pairStates_reaches 13)
  have requests :
      ∀ dev : Fin 2, ∀ time < 13, 4 ≤ time →
        (pairStates time).reqN (pairBus.ident dev) = .zero := by
    decide +kernel
  have elsewhere :
      ∀ time < 13, 4 ≤ time → (pairStates time).granted ≠ some 1 := by
    decide +kernel
  refine ⟨pairStates_reaches 13, ?_, ?_⟩
  · exact fair.1 0 5 13 (by decide) (by decide) (by decide +kernel)
      fun time lower upper => requests 0 time upper (by omega)
  · refine (fair.2 1 4 13 (by decide) ?_).2.2 0 4 8 (by decide) (by decide)
      (by decide) ⟨by decide +kernel, by decide +kernel⟩
    exact fun time lower upper =>
      ⟨requests 1 time upper lower, elsewhere time upper lower⟩

end Simbus.Pci
