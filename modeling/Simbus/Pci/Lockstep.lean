import Simbus.Pci.Grant
import Simbus.Pci.Client

/-!
# The server and its clients in lockstep

Every client has sent READY and waits.  One step is one round of the server,
the UNTIL messages it sends, and the READY messages the clients answer with.
When a client fails or is done, no further round takes place.
-/

namespace Simbus.Pci

open FourValued Clocked PciProtocol

/-- A client of the bus and how it reports its state in READY. -/
structure BusClient : Type 1 where
  State : Type
  Value : Type
  report : State → ClientSignals
  behavior : Behavior State Reply Value

namespace BusClient

/-- The READY of a client that waits for its UNTIL. -/
def ready (client : BusClient) : Option ClientSignals :=
  match client.behavior.run [] with
  | .waiting state => some (client.report state)
  | _ => none

/-- The client after a reply of the server. -/
def reply (client : BusClient) (reply : Reply) : BusClient :=
  { client with behavior := client.behavior.resume reply }

/-- A client of the C library, which reports all its outputs. -/
def ofLibrary
    {User Handle Value : Type}
    (behavior : Behavior (SimbusPci User Handle) Reply Value) :
    BusClient where
  State := SimbusPci User Handle
  Value := Value
  report := SimbusPci.ready
  behavior := behavior

end BusClient

variable {n : Nat}

/-- The READY values of all clients, if every client has sent one. -/
def allReady
    (clients : Fin n → BusClient) : Option (Fin n → ClientSignals) :=
  if every : ∀ dev, (clients dev).ready.isSome = true then
    some fun dev => (clients dev).ready.get (every dev)
  else
    none

theorem allReady_eq_some
    {clients : Fin n → BusClient}
    {reports : Fin n → ClientSignals} :
    allReady clients = some reports ↔
      ∀ dev, (clients dev).ready = some (reports dev) := by
  constructor
  · intro ready dev
    unfold allReady at ready
    split at ready
    · rw [Option.some.injEq] at ready
      rw [← ready, Option.some_get]
    · cases ready
  · intro ready
    have every : ∀ dev, (clients dev).ready.isSome = true := by
      intro dev
      rw [ready dev]
      rfl
    rw [allReady, dif_pos every, Option.some.injEq]
    funext dev
    rw [Option.get_of_eq_some (every dev) (ready dev)]

/-- The server and its clients, who all wait. -/
structure Lockstep (n : Nat) where
  proto : PciProtocol n
  clients : Fin n → BusClient

namespace Lockstep

/-- The bus is assembled when the first READY of every client is there. -/
def start
    (bus : PciBus n)
    (clients : Fin n → BusClient) : Option (Lockstep n) :=
  (allReady clients).map fun reports =>
    { proto := runInit bus reports
      clients := clients }

/-- The clients after the UNTIL messages of a round. -/
def replied
    (sys : Lockstep n)
    (proto : PciProtocol n) : Fin n → BusClient :=
  fun dev => (sys.clients dev).reply (.until (proto.sendSignals dev))

/-- One round, its UNTIL messages and the next READY messages. -/
def step
    (bus : PciBus n)
    (random : Nat)
    (sys : Lockstep n) : Option (Lockstep n) :=
  match sys.proto.runRun bus random with
  | .error _ => none
  | .ok proto =>
      (allReady (sys.replied proto)).map fun reports =>
        { proto := { proto with clientSignals := reports }
          clients := sys.replied proto }

/-- A run of the bus. -/
def run
    (bus : PciBus n)
    (clients : Fin n → BusClient)
    (random : Nat → Nat) : Nat → Option (Lockstep n)
  | 0 => start bus clients
  | count + 1 =>
      (run bus clients random count).bind (step bus (random count))

/-- What a step consists of. -/
theorem step_eq_some
    {bus : PciBus n}
    {random : Nat}
    {sys sys' : Lockstep n}
    (stepped : sys.step bus random = some sys') :
    ∃ proto reports,
      sys.proto.runRun bus random = .ok proto ∧
        (∀ dev, (sys.replied proto dev).ready = some (reports dev)) ∧
        sys' =
          { proto := { proto with clientSignals := reports }
            clients := sys.replied proto } := by
  unfold step at stepped
  split at stepped
  · cases stepped
  · rename_i proto success
    obtain ⟨reports, ready, rfl⟩ := Option.map_eq_some_iff.mp stepped
    exact ⟨proto, reports, success, allReady_eq_some.mp ready, rfl⟩

theorem start_eq_some
    {bus : PciBus n}
    {clients : Fin n → BusClient}
    {sys : Lockstep n}
    (started : start bus clients = some sys) :
    ∃ reports,
      (∀ dev, (clients dev).ready = some (reports dev)) ∧
        sys = { proto := runInit bus reports, clients := clients } := by
  obtain ⟨reports, ready, rfl⟩ := Option.map_eq_some_iff.mp started
  exact ⟨reports, allReady_eq_some.mp ready, rfl⟩

theorem run_succ
    {bus : PciBus n}
    {clients : Fin n → BusClient}
    {random : Nat → Nat}
    {count : Nat}
    {sys' : Lockstep n}
    (reached : run bus clients random (count + 1) = some sys') :
    ∃ sys, run bus clients random count = some sys ∧
      sys.step bus (random count) = some sys' := by
  exact Option.bind_eq_some_iff.mp reached

/-- An invariant that every step keeps holds in every run. -/
theorem run_invariant
    {bus : PciBus n}
    {clients : Fin n → BusClient}
    {random : Nat → Nat}
    (invariant : Lockstep n → Prop)
    (initially : ∀ sys, start bus clients = some sys → invariant sys)
    (kept : ∀ sys sys' random,
      invariant sys → sys.step bus random = some sys' → invariant sys')
    {count : Nat}
    {sys : Lockstep n}
    (reached : run bus clients random count = some sys) :
    invariant sys := by
  induction count generalizing sys with
  | zero =>
      exact initially sys reached
  | succ count inductionHypothesis =>
      obtain ⟨before, earlier, stepped⟩ := run_succ reached
      exact kept before sys (random count) (inductionHypothesis earlier)
        stepped

end Lockstep

end Simbus.Pci
