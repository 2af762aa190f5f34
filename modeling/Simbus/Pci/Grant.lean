import Simbus.Cyclic
import Simbus.Pci.Protocol

/-!
# The grant of the PCI arbiter

Every effect of one round on the owner record, the grant and the GNT# outputs
is stated once here.  From it follows that the arbiter never faults and that
the GNT# outputs always agree with `granted`, for arbitrary client signals.
-/

namespace Simbus.Pci

open FourValued

namespace PciProtocol

variable {n : Nat}
variable {bus : PciBus n}
variable {proto proto' : PciProtocol n}

/-! ## The clock phase -/

@[simp] theorem advancePciClock_phase :
    proto.advancePciClock.phase = proto.phase + 1 :=
  rfl

@[simp] theorem advancePciClock_granted :
    proto.advancePciClock.granted = proto.granted :=
  rfl

@[simp] theorem advancePciClock_master :
    proto.advancePciClock.master = proto.master :=
  rfl

@[simp] theorem advancePciClock_reqN :
    proto.advancePciClock.reqN = proto.reqN :=
  rfl

@[simp] theorem advancePciClock_clientSignals :
    proto.advancePciClock.clientSignals = proto.clientSignals :=
  rfl

/-! ## Sampling the requests -/

/-- The level a device contributes to the sampled REQ# vector. -/
def requestLevel (clientSignals : Fin n → ClientSignals) (dev : Fin n) : Logic4 :=
  interruptLevel (clientSignals dev).reqN

/-- A turn of the sampling loop leaves the identifiers of other devices alone. -/
private theorem sampleReq_other
    {clientSignals : Fin n → ClientSignals}
    {reqN : Fin 16 → Logic4}
    {dev : Fin n}
    {idx : Fin 16}
    (other : bus.ident dev ≠ idx) :
    sampleReq bus clientSignals reqN dev idx = reqN idx := by
  unfold sampleReq
  rcases (clientSignals dev).reqN with _ | level
  · rfl
  · cases level <;> simp [Function.update_of_ne other.symm]

private theorem sampleReq_self
    {clientSignals : Fin n → ClientSignals}
    {reqN : Fin 16 → Logic4}
    {dev : Fin n}
    (fresh : reqN (bus.ident dev) = .one) :
    sampleReq bus clientSignals reqN dev (bus.ident dev) =
      requestLevel clientSignals dev := by
  unfold sampleReq requestLevel interruptLevel
  rcases (clientSignals dev).reqN with _ | level
  · exact fresh
  · cases level <;> simp [fresh]

/-- The sampling loop over any list of devices without the device `dev`. -/
private theorem foldl_sampleReq_other
    {clientSignals : Fin n → ClientSignals}
    {devices : List (Fin n)}
    {reqN : Fin 16 → Logic4}
    {idx : Fin 16}
    (absent : ∀ dev ∈ devices, bus.ident dev ≠ idx) :
    devices.foldl (sampleReq bus clientSignals) reqN idx = reqN idx := by
  induction devices generalizing reqN with
  | nil =>
      rfl
  | cons dev rest inductionHypothesis =>
      rw [List.foldl_cons,
        inductionHypothesis fun other member => absent other (by simp [member]),
        sampleReq_other (absent dev (by simp))]

private theorem foldl_sampleReq_self
    {clientSignals : Fin n → ClientSignals}
    {devices : List (Fin n)}
    {reqN : Fin 16 → Logic4}
    {dev : Fin n}
    (noDuplicates : devices.Nodup)
    (member : dev ∈ devices)
    (fresh : reqN (bus.ident dev) = .one) :
    devices.foldl (sampleReq bus clientSignals) reqN (bus.ident dev) =
      requestLevel clientSignals dev := by
  induction devices generalizing reqN with
  | nil =>
      simp at member
  | cons head rest inductionHypothesis =>
      rw [List.nodup_cons] at noDuplicates
      rw [List.foldl_cons]
      by_cases isHead : head = dev
      · subst head
        rw [foldl_sampleReq_other, sampleReq_self fresh]
        intro other otherMember sameIdent
        exact noDuplicates.1
          (bus.identInjective sameIdent ▸ otherMember)
      · apply inductionHypothesis noDuplicates.2
        · simpa [Ne.symm isHead] using member
        · rw [sampleReq_other fun same => isHead (bus.identInjective same)]
          exact fresh

/-- The sampled vector holds the request of every device at its identifier. -/
theorem sampleReqN_ident
    (clientSignals : Fin n → ClientSignals)
    (dev : Fin n) :
    sampleReqN bus clientSignals (bus.ident dev) =
      requestLevel clientSignals dev :=
  foldl_sampleReq_self (List.nodup_finRange n) (List.mem_finRange dev) rfl

/-- Only the identifiers of devices can be sampled as requesting. -/
theorem exists_ident_of_sampleReqN
    {clientSignals : Fin n → ClientSignals}
    {idx : Fin 16}
    (requests : sampleReqN bus clientSignals idx = .zero) :
    ∃ dev, bus.ident dev = idx := by
  by_contra absent
  have untouched : sampleReqN bus clientSignals idx = .one :=
    foldl_sampleReq_other fun dev _ same => absent ⟨dev, same⟩
  rw [untouched] at requests
  cases requests

@[simp] theorem requestLevel_eq_zero
    {clientSignals : Fin n → ClientSignals}
    {dev : Fin n} :
    requestLevel clientSignals dev = .zero ↔
      (clientSignals dev).reqN = some .zero := by
  unfold requestLevel interruptLevel
  split <;> simp_all

/-! ## Following the owner of the bus -/

/-- The owner record after `track_req_n_` has looked at FRAME# and IRDY#. -/
def nextMaster (proto : PciProtocol n) : Option (Fin n) :=
  match proto.master, proto.granted with
  | none, none => none
  | none, some granted =>
      if proto.frameOf granted = .zero then some granted else none
  | some master, some granted =>
      if master = granted then
        some master
      else if proto.frameOf master = .zero ∨ proto.irdyOf master = .zero then
        some master
      else
        some granted
  | some master, none =>
      if proto.frameOf master ≠ .zero ∧ proto.irdyOf master ≠ .zero then
        none
      else
        some master

/-- No assertion of `track_req_n_` can fail: the owner record is `nextMaster`. -/
theorem trackMaster_eq
    (proto : PciProtocol n) :
    proto.trackMaster =
      .ok { proto with master := proto.nextMaster } := by
  obtain ⟨phase, granted, master, reqN, clientSignals, sendSignals⟩ := proto
  cases master with
  | none =>
      cases granted with
      | none =>
          simp [trackMaster, nextMaster]
      | some granted =>
          by_cases starts : (clientSignals granted).bi.frameN = .zero <;>
            simp [trackMaster, nextMaster, frameOf, starts]
  | some master =>
      cases granted with
      | none =>
          by_cases frames : (clientSignals master).bi.frameN = .zero <;>
            by_cases irdys : (clientSignals master).bi.irdyN = .zero <;>
              simp [trackMaster, nextMaster, frameOf, irdyOf, frames, irdys]
      | some granted =>
          by_cases same : master = granted
          · simp [trackMaster, nextMaster, same]
          · by_cases holds :
                (clientSignals master).bi.frameN = .zero ∨
                  (clientSignals master).bi.irdyN = .zero <;>
              simp [trackMaster, nextMaster, frameOf, irdyOf, same, holds]

/-- The protocol after `track_req_n_`. -/
def tracked (bus : PciBus n) (proto : PciProtocol n) : PciProtocol n :=
  if proto.phase = 0 then
    { proto with
      reqN := sampleReqN bus proto.clientSignals
      master := proto.nextMaster }
  else
    proto

theorem trackReqN_eq
    (bus : PciBus n)
    (proto : PciProtocol n) :
    proto.trackReqN bus = .ok (proto.tracked bus) := by
  unfold trackReqN tracked
  by_cases rising : proto.phase = 0
  · simp only [rising, ne_eq, not_true_eq_false, ↓reduceIte]
    rw [trackMaster_eq]
    rfl
  · simp [rising]

/-! ## Searching the next grantee -/

theorem countRequests_eq_zero
    {reqN : Fin 16 → Logic4} :
    countRequests reqN = 0 ↔ ∀ idx, reqN idx ≠ .zero := by
  simp [countRequests, List.length_eq_zero_iff]

/-- Turns of the search loop that starts at `start` before it reaches `idx`. -/
def searchTurns (start idx : Fin 16) : Nat :=
  Cyclic.distance (start + 1) idx

/--
The search stops at the first requester after `start`, and it stops as soon as
there is one within reach.
-/
theorem grantSearch_spec
    {reqN : Fin 16 → Logic4}
    {fuel : Nat}
    {start idx : Fin 16}
    (requests : reqN idx = .zero)
    (within : searchTurns start idx < fuel) :
    ∃ found,
      grantSearch reqN fuel start = some found ∧
        reqN found = .zero ∧
        searchTurns start found ≤ searchTurns start idx := by
  induction fuel generalizing start with
  | zero =>
      omega
  | succ fuel inductionHypothesis =>
      by_cases here : reqN (start + 1) = .zero
      · refine ⟨start + 1, by simp [grantSearch, here], here, ?_⟩
        simp [searchTurns, Cyclic.distance]
      · have idxNe : idx ≠ start + 1 := by
          intro same
          exact here (same ▸ requests)
        have fewer :
            ∀ other, other ≠ start + 1 →
              searchTurns start other = searchTurns (start + 1) other + 1 :=
          fun other otherNe => Cyclic.distance_succ otherNe
        have withinNext : searchTurns (start + 1) idx < fuel := by
          rw [fewer idx idxNe] at within
          omega
        obtain ⟨found, search, foundRequests, first⟩ :=
          inductionHypothesis withinNext
        have foundNe : found ≠ start + 1 := by
          intro same
          exact here (same ▸ foundRequests)
        refine ⟨found, ?_, foundRequests, ?_⟩
        · simpa [grantSearch, here] using search
        · rw [fewer idx idxNe, fewer found foundNe]
          omega

/-! ## One arbitration -/

/-- The three things an arbitration can do to the grant. -/
inductive Arbitrated
    (bus : PciBus n)
    (proto : PciProtocol n) : PciProtocol n → Prop where
  | kept :
      (proto.phase = 1 →
        (∀ idx, proto.reqN idx ≠ .zero) ∨
          ∃ granted, proto.granted = some granted ∧
            proto.reqN (bus.ident granted) = .zero) →
      Arbitrated bus proto proto
  | recalled (granted : Fin n) :
      proto.phase = 1 →
      (∀ idx, proto.reqN idx ≠ .zero) →
      proto.granted = some granted →
      bus.parkMode ≠ .last →
      Arbitrated bus proto
        { proto.setGnt granted .one with granted := none }
  | moved (start : Fin 16) (newDev : Fin n) :
      proto.phase = 1 →
      (∀ granted, proto.granted = some granted →
        start = bus.ident granted ∧
          proto.reqN (bus.ident granted) ≠ .zero) →
      proto.reqN (bus.ident newDev) = .zero →
      (∀ idx, proto.reqN idx = .zero →
        searchTurns start (bus.ident newDev) ≤ searchTurns start idx) →
      Arbitrated bus proto
        (proto.giveGrant newDev)

/-- A step that succeeds as specified, or divides by a zero `gnt_linger`. -/
def Arbitrates
    (bus : PciBus n)
    (proto : PciProtocol n)
    (result : Except Fault (PciProtocol n)) : Prop :=
  (∃ proto', result = .ok proto' ∧ Arbitrated bus proto proto') ∨
    (bus.gntLinger = 0 ∧ result = .error .divideByZero)

/-- With nobody requesting, the grant is kept or recalled. -/
private theorem recallGrant_spec
    (random : Nat)
    (arbitrates : proto.phase = 1)
    (idle : ∀ idx, proto.reqN idx ≠ .zero) :
    Arbitrates bus proto (proto.recallGrant bus random) := by
  have kept : Arbitrated bus proto proto :=
    .kept fun _ => .inl idle
  unfold recallGrant
  split
  · rename_i granted masterShape grantedShape
    by_cases parks : bus.parkMode = .last
    · exact .inl ⟨proto, by simp [parks], kept⟩
    · by_cases lingers : bus.gntLinger = 0
      · exact .inr ⟨lingers, by simp [parks, lingers]⟩
      · by_cases recalled : (random : Int).tmod bus.gntLinger = 0
        · exact .inl ⟨_, by simp [parks, lingers, recalled],
            .recalled granted arbitrates idle grantedShape parks⟩
        · exact .inl ⟨proto, by simp [parks, lingers, recalled], kept⟩
  · exact .inl ⟨proto, rfl, kept⟩

/-- With a requester and an idle grantee, the search finds a device. -/
private theorem moveGrant_spec
    (random : Nat)
    (arbitrates : proto.phase = 1)
    (attached : ∀ idx, proto.reqN idx = .zero → ∃ dev, bus.ident dev = idx)
    {requester : Fin 16}
    (requests : proto.reqN requester = .zero)
    (granteeIdle : ∀ granted, proto.granted = some granted →
      proto.reqN (bus.ident granted) ≠ .zero) :
    ∃ proto',
      proto.moveGrant bus random = .ok proto' ∧
        Arbitrated bus proto proto' := by
  unfold moveGrant
  generalize startShape : proto.searchStart bus random = start
  have startAt :
      ∀ granted, proto.granted = some granted →
        start = bus.ident granted := by
    intro granted grantedShape
    rw [← startShape, searchStart, grantedShape]
  have within : ∀ idx, searchTurns start idx < 16 :=
    fun idx => Cyclic.distance_lt (start + 1) idx
  obtain ⟨found, search, foundRequests, _⟩ :=
    grantSearch_spec requests (within requester)
  have foundFirst :
      ∀ idx, proto.reqN idx = .zero →
        searchTurns start found ≤ searchTurns start idx := by
    intro idx idxRequests
    obtain ⟨other, otherSearch, _, first⟩ :=
      grantSearch_spec idxRequests (within idx)
    rw [search, Option.some.injEq] at otherSearch
    exact otherSearch ▸ first
  have moves : proto.granted.map bus.ident ≠ some found := by
    intro same
    obtain ⟨granted, grantedShape, sameIdent⟩ :=
      Option.map_eq_some_iff.mp same
    exact granteeIdle granted grantedShape (sameIdent ▸ foundRequests)
  obtain ⟨dev, devIdent⟩ := attached found foundRequests
  have located :
      (List.finRange n).find? (fun dev => bus.ident dev = found) =
        some dev := by
    cases search' :
        (List.finRange n).find? fun dev => bus.ident dev = found with
    | none =>
        have absent := List.find?_eq_none.mp search' dev (List.mem_finRange dev)
        simp [devIdent] at absent
    | some other =>
        have otherIdent : bus.ident other = found := by
          simpa using List.find?_some search'
        rw [bus.identInjective (otherIdent.trans devIdent.symm)]
  simp only [search, moves, ↓reduceIte, located]
  subst found
  exact ⟨_, rfl, .moved start dev arbitrates
    (fun granted grantedShape =>
      ⟨startAt granted grantedShape, granteeIdle granted grantedShape⟩)
    foundRequests foundFirst⟩

/--
When every requester is an attached device, an arbitration can only fail by
dividing by a zero `gnt_linger`.
-/
theorem arbitrate_spec
    (attached : ∀ idx, proto.reqN idx = .zero → ∃ dev, bus.ident dev = idx)
    (random : Nat) :
    Arbitrates bus proto (proto.arbitrate bus random) := by
  unfold arbitrate
  by_cases arbitrates : proto.phase = 1
  · simp only [arbitrates, ne_eq, not_true_eq_false, ↓reduceIte]
    by_cases idle : countRequests proto.reqN = 0
    · simp only [idle, ↓reduceIte]
      exact recallGrant_spec random arbitrates
        (countRequests_eq_zero.mp idle)
    · simp only [idle, ↓reduceIte]
      by_cases holds : proto.granteeRequests bus = true
      · refine .inl ⟨proto, by simp [holds], .kept fun _ => .inr ?_⟩
        unfold granteeRequests at holds
        split at holds
        · rename_i granted grantedShape
          exact ⟨granted, grantedShape, by simpa using holds⟩
        · cases holds
      · simp only [holds, Bool.false_eq_true, ↓reduceIte]
        obtain ⟨requester, requests⟩ :
            ∃ requester, proto.reqN requester = .zero := by
          by_contra nobody
          exact idle (countRequests_eq_zero.mpr fun idx requests =>
            nobody ⟨idx, requests⟩)
        refine .inl (moveGrant_spec random arbitrates attached requests ?_)
        intro granted grantedShape requests'
        simp [granteeRequests, grantedShape, requests'] at holds
  · exact .inl ⟨proto, by simp [arbitrates],
      .kept fun now => (arbitrates now).elim⟩

/-! ## One round -/

/-- The rest of a round, which touches neither the grant nor GNT#. -/
def finishRound
    (bus : PciBus n)
    (pciClk resetN : Logic4)
    (proto : PciProtocol n) : PciProtocol n :=
  ((proto.routeInterrupts bus).blendBiSignals bus.ident).assignOutputs pciClk resetN

section FinishRound

variable (pciClk resetN : Logic4)

@[simp] theorem finishRound_phase :
    (proto.finishRound bus pciClk resetN).phase = proto.phase :=
  rfl

@[simp] theorem finishRound_granted :
    (proto.finishRound bus pciClk resetN).granted = proto.granted :=
  rfl

@[simp] theorem finishRound_master :
    (proto.finishRound bus pciClk resetN).master = proto.master :=
  rfl

@[simp] theorem finishRound_reqN :
    (proto.finishRound bus pciClk resetN).reqN = proto.reqN :=
  rfl

@[simp] theorem finishRound_clientSignals :
    (proto.finishRound bus pciClk resetN).clientSignals =
      proto.clientSignals :=
  rfl

@[simp] theorem finishRound_gntN
    (dev : Fin n) :
    ((proto.finishRound bus pciClk resetN).sendSignals dev).gntN =
      (proto.sendSignals dev).gntN :=
  rfl

@[simp] theorem finishRound_pcixcap
    (dev : Fin n) :
    ((proto.finishRound bus pciClk resetN).sendSignals dev).pcixcap =
      (proto.sendSignals dev).pcixcap :=
  rfl

@[simp] theorem finishRound_bi
    (dev : Fin n) :
    ((proto.finishRound bus pciClk resetN).sendSignals dev).bi =
      sentTo (blendedBus proto.clientSignals)
        (proto.clientSignals dev).bi :=
  rfl

end FinishRound

/-- The requests sampled last all come from devices of the bus. -/
def Attached (bus : PciBus n) (proto : PciProtocol n) : Prop :=
  ∀ idx, proto.reqN idx = .zero → ∃ dev, bus.ident dev = idx

/-- GNT# is 0 at exactly the device recorded as granted. -/
def GrantExact (proto : PciProtocol n) : Prop :=
  ∀ dev, (proto.sendSignals dev).gntN = .zero ↔ proto.granted = some dev

theorem tracked_attached
    (proto : PciProtocol n)
    (attached : Attached bus proto) :
    Attached bus (proto.tracked bus) := by
  unfold tracked
  split
  · intro idx requests
    exact exists_ident_of_sampleReqN requests
  · exact attached

/--
One round: the clock advances, the rising edge samples the requests and
follows the owner, and the next phase arbitrates.
-/
inductive Round
    (bus : PciBus n)
    (proto : PciProtocol n) : PciProtocol n → Prop where
  | mk (arbitrated : PciProtocol n) (resetN : Logic4) :
      Arbitrated bus (proto.advancePciClock.tracked bus) arbitrated →
      Round bus proto
        (arbitrated.finishRound bus (clkVal (proto.phase + 1)) resetN)

/-- A round can only fail by dividing by a zero `gnt_linger`. -/
theorem runRun_spec
    (attached : Attached bus proto)
    (random : Nat) :
    (∃ proto', proto.runRun bus random = .ok proto' ∧
        Round bus proto proto') ∨
      (bus.gntLinger = 0 ∧
        proto.runRun bus random = .error .divideByZero) := by
  have attachedNow : Attached bus (proto.advancePciClock.tracked bus) :=
    tracked_attached proto.advancePciClock attached
  rcases arbitrate_spec attachedNow random with
    ⟨arbitrated, success, spec⟩ | ⟨lingers, failure⟩
  · refine .inl ⟨_, ?_, .mk arbitrated
      (calculateResetN bus proto.clientSignals (List.finRange n) .one) spec⟩
    simp only [runRun, trackReqN_eq, bind, Except.bind, success]
    rfl
  · refine .inr ⟨lingers, ?_⟩
    simp only [runRun, trackReqN_eq, bind, Except.bind, failure]

/-- A round that succeeds has the specified effect. -/
theorem round_of_runRun
    (attached : Attached bus proto)
    {random : Nat}
    (success : proto.runRun bus random = .ok proto') :
    Round bus proto proto' := by
  rcases runRun_spec attached random with
    ⟨other, otherSuccess, round⟩ | ⟨_, failure⟩
  · rw [success, Except.ok.injEq] at otherSuccess
    exact otherSuccess ▸ round
  · rw [success] at failure
    cases failure

/-! ## GNT# follows the grant -/

@[simp] theorem setGnt_pcixcap
    (dev other : Fin n)
    (level : Logic4) :
    ((proto.setGnt dev level).sendSignals other).pcixcap =
      (proto.sendSignals other).pcixcap := by
  by_cases same : other = dev
  · subst other
    simp [setGnt]
  · simp [setGnt, same]

@[simp] theorem setGnt_gntN
    (dev other : Fin n)
    (level : Logic4) :
    ((proto.setGnt dev level).sendSignals other).gntN =
      if other = dev then level else (proto.sendSignals other).gntN := by
  by_cases same : other = dev
  · subst other
    simp [setGnt]
  · simp [setGnt, same]

/-- An arbitration keeps GNT# in agreement with the grant. -/
theorem Arbitrated.grantExact
    (arbitrated : Arbitrated bus proto proto')
    (grantExact : GrantExact proto) :
    GrantExact proto' := by
  cases arbitrated with
  | kept _ =>
      exact grantExact
  | recalled granted _ _ grantedShape _ =>
      intro dev
      by_cases same : dev = granted
      · simp [same]
      · simpa [same, grantedShape, Ne.symm same] using grantExact dev
  | moved start newDev _ granteeIdle requests _ =>
      intro dev
      unfold giveGrant
      cases grantedShape : proto.granted with
      | none =>
          have idle := (grantExact dev).not.mpr (by simp [grantedShape])
          by_cases same : dev = newDev
          · simp [same]
          · simp [same, idle, Ne.symm same]
      | some granted =>
          have moves : newDev ≠ granted := by
            intro same
            exact (granteeIdle granted grantedShape).2 (same ▸ requests)
          by_cases isOld : dev = granted
          · simp [isOld, moves]
          · have idle := (grantExact dev).not.mpr
              (by simp [grantedShape, Ne.symm isOld])
            by_cases same : dev = newDev
            · simp [same, moves]
            · simp [same, isOld, idle, Ne.symm same]

/-- An arbitration looks at the sampled requests and leaves them alone. -/
theorem Arbitrated.reqN_eq
    (arbitrated : Arbitrated bus proto proto') :
    proto'.reqN = proto.reqN := by
  cases arbitrated with
  | kept _ =>
      rfl
  | recalled _ _ _ _ _ =>
      rfl
  | moved _ newDev _ _ _ _ =>
      unfold giveGrant
      split <;> rfl

theorem Arbitrated.pcixcap_eq
    (arbitrated : Arbitrated bus proto proto')
    (dev : Fin n) :
    (proto'.sendSignals dev).pcixcap = (proto.sendSignals dev).pcixcap := by
  cases arbitrated with
  | kept _ =>
      rfl
  | recalled _ _ _ _ _ =>
      simp
  | moved _ newDev _ _ _ _ =>
      unfold giveGrant
      split <;> simp

theorem Arbitrated.phase_eq
    (arbitrated : Arbitrated bus proto proto') :
    proto'.phase = proto.phase := by
  cases arbitrated with
  | kept _ =>
      rfl
  | recalled _ _ _ _ _ =>
      rfl
  | moved _ newDev _ _ _ _ =>
      unfold giveGrant
      split <;> rfl

theorem Arbitrated.master_eq
    (arbitrated : Arbitrated bus proto proto') :
    proto'.master = proto.master := by
  cases arbitrated with
  | kept _ =>
      rfl
  | recalled _ _ _ _ _ =>
      rfl
  | moved _ newDev _ _ _ _ =>
      unfold giveGrant
      split <;> rfl

theorem Arbitrated.clientSignals_eq
    (arbitrated : Arbitrated bus proto proto') :
    proto'.clientSignals = proto.clientSignals := by
  cases arbitrated with
  | kept _ =>
      rfl
  | recalled _ _ _ _ _ =>
      rfl
  | moved _ newDev _ _ _ _ =>
      unfold giveGrant
      split <;> rfl

/-! ## What a round sends -/

@[simp] theorem tracked_phase :
    (proto.tracked bus).phase = proto.phase := by
  unfold tracked
  split <;> rfl

@[simp] theorem tracked_granted :
    (proto.tracked bus).granted = proto.granted := by
  unfold tracked
  split <;> rfl

@[simp] theorem tracked_clientSignals :
    (proto.tracked bus).clientSignals = proto.clientSignals := by
  unfold tracked
  split <;> rfl

@[simp] theorem tracked_sendSignals :
    (proto.tracked bus).sendSignals = proto.sendSignals := by
  unfold tracked
  split <;> rfl

theorem Round.phase_eq
    (round : Round bus proto proto') :
    proto'.phase = proto.phase + 1 := by
  cases round with
  | mk arbitrated _ spec =>
      simp [spec.phase_eq]

theorem Round.clientSignals_eq
    (round : Round bus proto proto') :
    proto'.clientSignals = proto.clientSignals := by
  cases round with
  | mk arbitrated _ spec =>
      simp [spec.clientSignals_eq]

theorem Round.pciClk_eq
    (round : Round bus proto proto')
    (dev : Fin n) :
    (proto'.sendSignals dev).pciClk = clkVal (proto.phase + 1) := by
  cases round with
  | mk _ _ _ =>
      rfl

theorem Round.pcixcap_eq
    (round : Round bus proto proto')
    (dev : Fin n) :
    (proto'.sendSignals dev).pcixcap =
      (proto.sendSignals dev).pcixcap := by
  cases round with
  | mk arbitrated _ spec =>
      rw [finishRound_pcixcap, spec.pcixcap_eq, tracked_sendSignals]
      rfl

/-- Every device is sent its share of the bus the clients have reported. -/
theorem Round.bi_eq
    (round : Round bus proto proto')
    (dev : Fin n) :
    (proto'.sendSignals dev).bi =
      sentTo (blendedBus proto.clientSignals)
        (proto.clientSignals dev).bi := by
  cases round with
  | mk arbitrated _ spec =>
      rw [finishRound_bi, spec.clientSignals_eq, tracked_clientSignals]
      rfl

/-! ## Invariants of a round -/

theorem Round.attached
    (round : Round bus proto proto')
    (attached : Attached bus proto) :
    Attached bus proto' := by
  cases round with
  | mk arbitrated _ spec =>
      intro idx requests
      rw [finishRound_reqN, spec.reqN_eq] at requests
      exact tracked_attached proto.advancePciClock attached idx requests

theorem tracked_grantExact
    (proto : PciProtocol n)
    (grantExact : GrantExact proto) :
    GrantExact (proto.tracked bus) := by
  unfold tracked
  split <;> exact grantExact

theorem Round.grantExact
    (round : Round bus proto proto')
    (grantExact : GrantExact proto) :
    GrantExact proto' := by
  cases round with
  | mk arbitrated _ spec =>
      exact spec.grantExact
        (tracked_grantExact proto.advancePciClock grantExact)

/-! ## Runs of the server -/

end PciProtocol

/-- What reaches the server in a run: the READY values and the random numbers. -/
structure ServerInput (n : Nat) where
  reported : Fin n → ClientSignals
  inputs : Nat → Fin n → ClientSignals
  random : Nat → Nat

open PciProtocol

variable {n : Nat}

/-- The protocol after a number of rounds from `run_init`. -/
def serverRun
    (bus : PciBus n)
    (input : ServerInput n) : Nat → Except Fault (PciProtocol n)
  | 0 => .ok (runInit bus input.reported)
  | step + 1 => do
      let proto ← serverRun bus input step
      PciProtocol.runRun bus (input.random step)
        { proto with clientSignals := input.inputs step }

/-- What holds after every round, whatever the clients report. -/
structure GrantInvariant
    (bus : PciBus n)
    (proto : PciProtocol n) : Prop where
  attached : Attached bus proto
  grantExact : GrantExact proto

theorem runInit_grantInvariant
    (bus : PciBus n)
    (reported : Fin n → ClientSignals) :
    GrantInvariant bus (runInit bus reported) where
  attached := by
    intro idx requests
    simp [runInit] at requests
  grantExact := by
    intro dev
    simp [runInit, initSend]

/-- New READY values touch neither the sampled requests nor the grant. -/
theorem GrantInvariant.report
    {bus : PciBus n}
    {proto : PciProtocol n}
    (invariant : GrantInvariant bus proto)
    (clientSignals : Fin n → ClientSignals) :
    GrantInvariant bus { proto with clientSignals := clientSignals } where
  attached := invariant.attached
  grantExact := invariant.grantExact

theorem GrantInvariant.round
    {bus : PciBus n}
    {proto proto' : PciProtocol n}
    (invariant : GrantInvariant bus proto)
    (round : Round bus proto proto') :
    GrantInvariant bus proto' where
  attached := round.attached invariant.attached
  grantExact := round.grantExact invariant.grantExact

/-- A successful run reaches each state from the one before by a round. -/
theorem serverRun_succ
    {bus : PciBus n}
    {input : ServerInput n}
    {step : Nat}
    {proto' : PciProtocol n}
    (success : serverRun bus input (step + 1) = .ok proto') :
    ∃ proto, serverRun bus input step = .ok proto ∧
      PciProtocol.runRun bus (input.random step)
        { proto with clientSignals := input.inputs step } = .ok proto' := by
  cases before : serverRun bus input step with
  | error fault =>
      rw [serverRun, before] at success
      cases success
  | ok proto =>
      rw [serverRun, before] at success
      exact ⟨proto, rfl, success⟩

theorem serverRun_grantInvariant
    {bus : PciBus n}
    {input : ServerInput n}
    {step : Nat}
    {proto : PciProtocol n}
    (success : serverRun bus input step = .ok proto) :
    GrantInvariant bus proto := by
  induction step generalizing proto with
  | zero =>
      rw [serverRun, Except.ok.injEq] at success
      exact success ▸ runInit_grantInvariant bus input.reported
  | succ step inductionHypothesis =>
      obtain ⟨before, reached, success⟩ := serverRun_succ success
      have invariant :=
        (inductionHypothesis reached).report (input.inputs step)
      exact invariant.round
        (round_of_runRun invariant.attached success)

/-- With a positive `gnt_linger` no round of a run fails. -/
theorem serverRun_survives
    (lingers : 0 < bus.gntLinger)
    (input : ServerInput n)
    (step : Nat) :
    ∃ proto, serverRun bus input step = .ok proto := by
  induction step with
  | zero =>
      exact ⟨_, rfl⟩
  | succ step inductionHypothesis =>
      obtain ⟨proto, reached⟩ := inductionHypothesis
      have invariant :=
        (serverRun_grantInvariant reached).report (input.inputs step)
      rcases runRun_spec invariant.attached (input.random step) with
        ⟨proto', success, _⟩ | ⟨zero, _⟩
      · refine ⟨proto', ?_⟩
        rw [serverRun, reached]
        exact success
      · omega

/--
With a positive `gnt_linger` the server survives every run: no assertion of
the tracker or the arbiter fails, the search loop ends, and the only device
that sees GNT# at 0 is the granted one.
-/
theorem serverRun_grants_one
    (bus : PciBus n)
    (lingers : 0 < bus.gntLinger)
    (input : ServerInput n)
    (step : Nat) :
    ∃ proto,
      serverRun bus input step = .ok proto ∧
        (∀ dev, (proto.sendSignals dev).gntN = .zero ↔
          proto.granted = some dev) ∧
        ∀ first second,
          (proto.sendSignals first).gntN = .zero →
          (proto.sendSignals second).gntN = .zero →
          first = second := by
  obtain ⟨proto, reached⟩ := serverRun_survives lingers input step
  have grantExact := (serverRun_grantInvariant reached).grantExact
  refine ⟨proto, reached, grantExact, ?_⟩
  intro first second firstGranted secondGranted
  have sameGrant :=
    ((grantExact first).mp firstGranted).symm.trans
      ((grantExact second).mp secondGranted)
  exact Option.some.inj sameGrant

/-- A small bus: a host in slot 0 and a device in slot 1. -/
def pairBus : PciBus 2 where
  hostFlag := fun dev => dev = 0
  ident := fun dev => if dev = 0 then 0 else 1
  identInjective := fun first second => by
    revert first second
    decide
  parkMode := .none
  gntLinger := 10
  pcixcap := .zero

/-- Both devices request the bus all the time and drive nothing else. -/
def pairRequests : ServerInput 2 where
  reported := fun _ => ⟨none, none, fun _ => none, BiSignals.released⟩
  inputs := fun _ _ =>
    ⟨none, some .zero, fun _ => none, BiSignals.released⟩
  random := fun _ => 15

theorem pairBus_grants_one :
    0 < pairBus.gntLinger ∧
      ∃ proto,
        serverRun pairBus pairRequests 6 = .ok proto ∧
          (∀ dev, (proto.sendSignals dev).gntN = .zero ↔
            proto.granted = some dev) ∧
          ∀ first second,
            (proto.sendSignals first).gntN = .zero →
            (proto.sendSignals second).gntN = .zero →
            first = second :=
  ⟨by decide, serverRun_grants_one pairBus (by decide) pairRequests 6⟩

end Simbus.Pci
