import Simbus.Pci.Exclusion
import Simbus.Pci.MasterEtiquette
import Simbus.Pci.TargetIdle

/-!
# The owner of a conventional bus

Any user programs of the library on any number of devices: the masters they
make keep the etiquette, so at most one of them drives FRAME# or IRDY# to 0,
and the server's owner record names it.
-/

namespace Simbus.Pci

open FourValued Clocked PciProtocol

/-! ## User programs -/

/--
A user program: whatever it computes and however long it loops, it reaches the
bus through the library only.
-/
inductive UsesLibrary
    {User Handle : Type}
    (callbacks : Callbacks User Handle)
    (stack : Nat) : {Value : Type} → Call User Handle Value → Prop where
  | pure {Value : Type} (value : Value) :
      UsesLibrary callbacks stack (Pure.pure value)
  | bind
      {Value Result : Type}
      {call : Call User Handle Value}
      {next : Value → Call User Handle Result} :
      UsesLibrary callbacks stack call →
      (∀ value, UsesLibrary callbacks stack (next value)) →
      UsesLibrary callbacks stack (call >>= next)
  | loop
      {Local Value : Type}
      {body : Local → Call User Handle (Local ⊕ Value)}
      (current : Local) :
      (∀ current, UsesLibrary callbacks stack (body current)) →
      UsesLibrary callbacks stack (Program.loop body current)
  | getState :
      UsesLibrary callbacks stack Program.getState
  | setDevice (change : Device User Handle → Device User Handle) :
      UsesLibrary callbacks stack
        (Program.modifyState fun pci =>
          { pci with device := change pci.device })
  | wait (clks : Nat) (irq : Option (BitVec 64)) :
      UsesLibrary callbacks stack (simbusPciWait callbacks stack clks irq)
  | reset (width settle : Nat) :
      UsesLibrary callbacks stack
        (simbusPciReset callbacks stack width settle)
  | read32Xz (addr : BitVec 64) (ben : BitVec 32) :
      UsesLibrary callbacks stack (simbusPciRead32Xz callbacks stack addr ben)
  | read32 (addr : BitVec 64) (ben : BitVec 32) :
      UsesLibrary callbacks stack (simbusPciRead32 callbacks stack addr ben)
  | write32 (addr : BitVec 64) (val ben : BitVec 32) :
      UsesLibrary callbacks stack
        (simbusPciWrite32 callbacks stack addr val ben)
  | write32b (addr : BitVec 64) (words : List (BitVec 32))
      (beFn beLn : BitVec 32) :
      UsesLibrary callbacks stack
        (simbusPciWrite32b callbacks stack addr words beFn beLn)
  | read64 (addr : BitVec 64) (ben : BitVec 32) :
      UsesLibrary callbacks stack (simbusPciRead64 callbacks stack addr ben)
  | write64 (addr val : BitVec 64) (ben : BitVec 32) :
      UsesLibrary callbacks stack
        (simbusPciWrite64 callbacks stack addr val ben)
  | write64b (addr : BitVec 64) (words : List (BitVec 64))
      (beFn beLn : BitVec 32) :
      UsesLibrary callbacks stack
        (simbusPciWrite64b callbacks stack addr words beFn beLn)
  | configRead (dfn : BitVec 8) (dwAddr : BitVec 16) :
      UsesLibrary callbacks stack
        (simbusPciConfigRead callbacks stack dfn dwAddr)
  | configWrite (dfn : BitVec 8) (dwAddr : BitVec 16) (val ben : BitVec 32) :
      UsesLibrary callbacks stack
        (simbusPciConfigWrite callbacks stack dfn dwAddr val ben)

section

variable {User Handle Value : Type}
variable {callbacks : Callbacks User Handle}
variable {stack : Nat}

/-- A user program rests whenever the library returns to it. -/
theorem UsesLibrary.ensures
    {program : Call User Handle Value}
    (uses : UsesLibrary callbacks stack program) :
    Maintains (Resting .one) program := by
  induction uses with
  | pure value =>
      exact .pure value
  | bind _ _ first second =>
      exact .bind first second
  | loop current _ turn =>
      exact .loop turn current
  | getState =>
      exact fun _ _ resting => meets_finish.mpr resting
  | setDevice change =>
      exact .unseen fun _ => rfl
  | wait clks irq =>
      exact simbusPciWait_ensures callbacks stack clks irq
  | reset width settle =>
      exact simbusPciReset_ensures callbacks stack width settle
  | read32Xz addr ben =>
      exact simbusPciRead32Xz_ensures callbacks stack addr ben
  | read32 addr ben =>
      exact simbusPciRead32_ensures callbacks stack addr ben
  | write32 addr val ben =>
      exact simbusPciWrite32_ensures callbacks stack addr val ben
  | write32b addr words beFn beLn =>
      exact simbusPciWrite32b_ensures callbacks stack addr words beFn beLn
  | read64 addr ben =>
      exact simbusPciRead64_ensures callbacks stack addr ben
  | write64 addr val ben =>
      exact simbusPciWrite64_ensures callbacks stack addr val ben
  | write64b addr words beFn beLn =>
      exact simbusPciWrite64b_ensures callbacks stack addr words beFn beLn
  | configRead dfn dwAddr =>
      exact simbusPciConfigRead_ensures callbacks stack dfn dwAddr
  | configWrite dfn dwAddr val ben =>
      exact simbusPciConfigWrite_ensures callbacks stack dfn dwAddr val ben

end

/-- A new client rests. -/
theorem init_resting
    {User Handle : Type}
    (ident : Nat)
    (randomState : Nat → BitVec 32)
    (user : User) :
    Resting .one .initial
      (SimbusPci.init ident randomState user :
        SimbusPci User Handle).stance where
  phase := rfl
  shows := rfl
  next := .rest rfl
  released := by decide
  clock := .inr ⟨rfl, Logic4.noConfusion⟩

/-- A client that runs a user program from the start. -/
inductive RunsLibrary (ident : Nat) : BusClient → Prop where
  | intro
      {User Handle Value : Type}
      {callbacks : Callbacks User Handle}
      {stack : Nat}
      {program : Call User Handle Value}
      (uses : UsesLibrary callbacks stack program)
      (randomState : Nat → BitVec 32)
      (user : User) :
      RunsLibrary ident
        (.ofLibrary
          (program.start (SimbusPci.init ident randomState user)))

theorem RunsLibrary.wellMannered
    {ident : Nat}
    {client : BusClient}
    (runs : RunsLibrary ident client) :
    WellMannered client .initial := by
  cases runs with
  | intro uses randomState user =>
      exact (uses.ensures .initial _
        (init_resting ident randomState user)).mono fun _ _ _ _ => trivial

/-! ## Runs -/

section

variable {n : Nat}
variable {bus : PciBus n}
variable {masters : Fin n → Prop}

/-- The clients of a conventional bus: user programs and bystanders. -/
structure ConventionalClients
    (bus : PciBus n)
    (masters : Fin n → Prop)
    (clients : Fin n → BusClient) : Prop where
  pcixcap : bus.pcixcap = .zero
  library : ∀ dev, masters dev → RunsLibrary (bus.ident dev) (clients dev)
  bystander : ∀ dev, ¬ masters dev → Bystander (clients dev)

theorem ConventionalClients.run_invariant
    {clients : Fin n → BusClient}
    (conventional : ConventionalClients bus masters clients)
    {random : Nat → Nat}
    {count : Nat}
    {sys : Lockstep n}
    (reached : Lockstep.run bus clients random count = some sys) :
    LockstepInvariant bus masters sys := by
  refine Lockstep.run_invariant (LockstepInvariant bus masters) ?_ ?_ reached
  · intro sys started
    exact Lockstep.start_invariant conventional.pcixcap
      (fun dev isMaster => (conventional.library dev isMaster).wellMannered)
      conventional.bystander started
  · intro sys sys' random invariant stepped
    exact Lockstep.step_invariant invariant stepped

/--
However the programs of the masters are scheduled by the grants, no two
devices drive FRAME# or IRDY# to 0 at the same time.
-/
theorem masters_exclusive
    {clients : Fin n → BusClient}
    (conventional : ConventionalClients bus masters clients)
    {random : Nat → Nat}
    {count : Nat}
    {sys : Lockstep n}
    (reached : Lockstep.run bus clients random count = some sys)
    {first second : Fin n}
    (apart : first ≠ second) :
    ¬ ((sys.proto.driveAt first).Holds ∧
      (sys.proto.driveAt second).Holds) := by
  rintro ⟨firstHolds, secondHolds⟩
  have invariant := conventional.run_invariant reached
  exact apart (invariant.owner.exclusive first second firstHolds.active
    secondHolds.active)

/--
At every rising edge the owner record names the device that drives FRAME# or
IRDY# to 0; and whatever the clients do, the record does not leave a device
that drives one of them to 0.
-/
theorem owner_recorded
    (bus : PciBus n) :
    (∀ (masters : Fin n → Prop) (clients : Fin n → BusClient)
        (random : Nat → Nat) (count draw : Nat)
        (sys : Lockstep n) (proto : PciProtocol n) (dev : Fin n),
      ConventionalClients bus masters clients →
      Lockstep.run bus clients random count = some sys →
      sys.proto.runRun bus draw = .ok proto →
      proto.phase = 0 →
      (sys.proto.driveAt dev).Holds →
      proto.master = some dev) ∧
    (∀ (input : ServerInput n) (step : Nat)
        (proto proto' : PciProtocol n) (dev : Fin n),
      serverRun bus input step = .ok proto →
      serverRun bus input (step + 1) = .ok proto' →
      proto.master = some dev →
      (driveOf (input.inputs step dev)).Holds →
      proto'.master = some dev) := by
  constructor
  · intro masters clients random count draw sys proto dev conventional
      reached success rising holds
    have invariant := conventional.run_invariant reached
    have round := round_of_runRun invariant.grant.attached success
    rw [round.phase_eq] at rising
    rw [(round.rising rising).2.1]
    exact invariant.owner.nextMaster_holder holds
  · intro input step proto proto' dev reached success isMaster holds
    obtain ⟨before, sameReached, success⟩ := serverRun_succ success
    rw [reached, Except.ok.injEq] at sameReached
    subst sameReached
    have invariant :=
      (serverRun_grantInvariant reached).report (input.inputs step)
    have round := round_of_runRun invariant.attached success
    by_cases rising : proto.phase + 1 = 0
    · rw [(round.rising rising).2.1]
      exact nextMaster_stays isMaster holds
    · rw [round.master_between rising]
      exact isMaster

end

/-! ## Two masters at once -/

/-- Two masters that write a word each as soon as they have connected. -/
def pairWriters (dev : Fin 2) : BusClient :=
  .ofLibrary
    ((simbusPciWrite32 noCallbacks 1 0x1000 0 0).start
      (SimbusPci.init (pairBus.ident dev) (fun _ => 0) ()))

theorem pairWriters_conventional :
    ConventionalClients pairBus (fun _ => True) pairWriters where
  pcixcap := rfl
  library := fun _ _ => .intro (.write32 0x1000 0 0) (fun _ => 0) ()
  bystander := fun _ notMaster => (notMaster trivial).elim

/-- The state in which the second device starts and the first one waits. -/
theorem pairWriters_started :
    ∃ sys,
      Lockstep.run pairBus pairWriters (fun _ => 0) 11 = some sys ∧
        sys.proto.phase = 3 ∧
        sys.proto.driveAt 0 = .requesting ∧
        sys.proto.driveAt 1 = .addressing := by
  have evaluated :
      ((Lockstep.run pairBus pairWriters (fun _ => 0) 11).map fun sys =>
          (sys.proto.phase, sys.proto.driveAt 0, sys.proto.driveAt 1)) =
        some (3, .requesting, .addressing) := by
    decide +kernel
  obtain ⟨sys, reached, shape⟩ := Option.map_eq_some_iff.mp evaluated
  simp only [Prod.mk.injEq] at shape
  exact ⟨sys, reached, shape⟩

theorem pairWriters_exclusive :
    ∃ sys,
      Lockstep.run pairBus pairWriters (fun _ => 0) 11 = some sys ∧
        (sys.proto.driveAt 1).Holds ∧
        ¬ ((sys.proto.driveAt 0).Holds ∧ (sys.proto.driveAt 1).Holds) := by
  obtain ⟨sys, reached, _, _, addressing⟩ := pairWriters_started
  refine ⟨sys, reached, ?_, ?_⟩
  · rw [addressing]
    exact Drive.addressing_owns.holds
  · exact masters_exclusive pairWriters_conventional reached (by decide)

/-- A device that requests the bus and then drives FRAME# to 0. -/
def pairTransaction : ServerInput 2 where
  reported := fun _ =>
    ⟨none, none, fun _ => none, BiSignals.released⟩
  inputs := fun step dev =>
    { resetN := none
      reqN := some (if dev = 0 ∧ step < 8 then .zero else .one)
      intN := fun _ => none
      bi :=
        { BiSignals.released with
          frameN := if dev = 0 ∧ 8 ≤ step then .zero else .z } }
  random := fun _ => 0

theorem pairTransaction_master :
    ∃ proto proto',
      serverRun pairBus pairTransaction 12 = .ok proto ∧
        serverRun pairBus pairTransaction 13 = .ok proto' ∧
        proto.master = some 0 := by
  have evaluated :
      ((serverRun pairBus pairTransaction 12).toOption.map fun proto =>
          proto.master) = some (some 0) := by
    decide +kernel
  have lingers : 0 < pairBus.gntLinger := by decide
  obtain ⟨proto, reached⟩ := serverRun_survives lingers pairTransaction 12
  obtain ⟨proto', next⟩ := serverRun_survives lingers pairTransaction 13
  rw [reached] at evaluated
  exact ⟨proto, proto', reached, next, Option.some.inj evaluated⟩

theorem pairWriters_recorded :
    (∃ sys proto,
      Lockstep.run pairBus pairWriters (fun _ => 0) 11 = some sys ∧
        sys.proto.runRun pairBus 0 = .ok proto ∧
        proto.master = some 1) ∧
      ∃ proto',
        serverRun pairBus pairTransaction 13 = .ok proto' ∧
          proto'.master = some 0 := by
  constructor
  · obtain ⟨sys, reached, phase, _, addressing⟩ := pairWriters_started
    have invariant := pairWriters_conventional.run_invariant reached
    have holds : (sys.proto.driveAt 1).Holds := by
      rw [addressing]
      exact Drive.addressing_owns.holds
    rcases runRun_spec invariant.grant.attached 0 with
      ⟨proto, success, round⟩ | ⟨zero, _⟩
    · have rising : proto.phase = 0 := by
        rw [round.phase_eq, phase]
        rfl
      exact ⟨sys, proto, reached, success,
        (owner_recorded pairBus).1 _ _ _ _ _ _ _ _
          pairWriters_conventional reached success rising holds⟩
    · cases zero
  · obtain ⟨proto, proto', reached, next, isMaster⟩ :=
      pairTransaction_master
    have holds : (driveOf (pairTransaction.inputs 12 0)).Holds :=
      .inl rfl
    exact ⟨proto', next,
      (owner_recorded pairBus).2 _ _ _ _ _ reached next isMaster holds⟩

end Simbus.Pci
