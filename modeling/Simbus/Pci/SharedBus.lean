import Simbus.Pci.AddressPhase

/-!
# Clients on one bus, clock by clock

In every exchange the server blends what all clients drive and sends each of
them the rest of the bus.  A client that waits for the next rising edge drives
the same until then, so a clock of the bus is told by what the clients drive at
its start.
-/

namespace Simbus.Pci

open FourValued Clocked PciProtocol

variable {n : Nat}

/-- One exchange: the READY messages and the UNTIL messages after them. -/
structure Exchange (n : Nat) where
  pciClk : Logic4
  reports : Fin n → ClientSignals
  sends : Fin n → SendSignals

/-- The server has blended the reports, on a conventional bus. -/
structure Exchange.Assembled (exchange : Exchange n) : Prop where
  blended : ∀ dev, (exchange.sends dev).bi =
    sentTo (blendedBus exchange.reports) (exchange.reports dev).bi
  sameClk : ∀ dev, (exchange.sends dev).pciClk = exchange.pciClk
  conventional : ∀ dev, (exchange.sends dev).pcixcap ≠ .one

/-- Exchanges up to and including the next rising edge. -/
inductive ToEdge : Logic4 → List (Exchange n) → Prop where
  | rises
      {last : Exchange n}
      (isOne : last.pciClk = .one) :
      ToEdge .zero [last]
  | low
      {exchange : Exchange n}
      {later : List (Exchange n)}
      (isZero : exchange.pciClk = .zero)
      (toEdge : ToEdge .zero later) :
      ToEdge .zero (exchange :: later)
  | falls
      {exchange : Exchange n}
      {later : List (Exchange n)}
      (isZero : exchange.pciClk = .zero)
      (toEdge : ToEdge .zero later) :
      ToEdge .one (exchange :: later)
  | high
      {exchange : Exchange n}
      {later : List (Exchange n)}
      (isOne : exchange.pciClk = .one)
      (toEdge : ToEdge .one later) :
      ToEdge .one (exchange :: later)

/-- The exchanges of some clocks, each from a rising edge to the next. -/
inductive Clocks : Nat → List (Exchange n) → Prop where
  | none : Clocks 0 []
  | clock
      {count : Nat}
      {first later : List (Exchange n)}
      (toEdge : ToEdge .one first)
      (clocks : Clocks count later) :
      Clocks (count + 1) (first ++ later)

/-- The messages to a client. -/
abbrev sentIn
    (exchanges : List (Exchange n))
    (dev : Fin n) : List SendSignals :=
  exchanges.map fun exchange => exchange.sends dev

/-- The replies to a client. -/
abbrev repliesIn
    (exchanges : List (Exchange n))
    (dev : Fin n) : List Reply :=
  exchanges.map fun exchange => .until (exchange.sends dev)

section

variable {User Handle Value : Type}

/-- The reports of a client are what it drives when it waits. -/
def Reports
    (dev : Fin n)
    (client : Behavior (SimbusPci User Handle) Reply Value)
    (exchanges : List (Exchange n)) : Prop :=
  ∀ before exchange after, exchanges = before ++ exchange :: after →
    ∀ pci, (client.resumeAll (repliesIn before dev)).run [] = .waiting pci →
      (exchange.reports dev).bi = pci.out

theorem Reports.first
    {dev : Fin n}
    {client : Behavior (SimbusPci User Handle) Reply Value}
    {pci : SimbusPci User Handle}
    {exchange : Exchange n}
    {later : List (Exchange n)}
    (reports : Reports dev client (exchange :: later))
    (waits : client.run [] = .waiting pci) :
    (exchange.reports dev).bi = pci.out :=
  reports [] exchange later rfl pci waits

theorem Reports.later
    {dev : Fin n}
    {client : Behavior (SimbusPci User Handle) Reply Value}
    {exchange : Exchange n}
    {later : List (Exchange n)}
    (reports : Reports dev client (exchange :: later)) :
    Reports dev (client.resume (.until (exchange.sends dev))) later := by
  rintro before last after rfl pci waits
  exact reports (exchange :: before) last after rfl pci waits

/-! ## Waiting for an edge -/

/-- A client that exchanges until the next rising edge. -/
structure PassesEdge
    (high low done : SimbusPci User Handle →
      Behavior (SimbusPci User Handle) Reply Value) : Prop where
  atOne : ∀ pci, pci.pciClk = .one →
    ∃ next, high pci = .await pci next ∧
      (∀ signals, signals.pciClk = .one →
        next (.until signals) = high (pci.sample signals)) ∧
      ∀ signals, signals.pciClk = .zero →
        next (.until signals) = low (pci.sample signals)
  atZero : ∀ pci, pci.pciClk = .zero →
    ∃ next, low pci = .await pci next ∧
      (∀ signals, signals.pciClk = .zero →
        next (.until signals) = low (pci.sample signals)) ∧
      ∀ signals, signals.pciClk = .one →
        next (.until signals) = done (pci.sample signals)

/-- `__pci_next_posedge` and what comes after it. -/
theorem pciNextPosedge_passesEdge
    (next : SimbusPci User Handle →
      Behavior (SimbusPci User Handle) Reply Value) :
    PassesEdge
      (fun pci => (pciNextPosedge.start pci).bind fun _ => next)
      (fun pci => ((exchangeAt .zero).start pci).bind fun _ pci =>
        next (calculateParity pci))
      (fun pci => next (calculateParity pci)) := by
  have halves := fun pci => pciNextPosedge_halves pci next
  have passed : ∀ (level : Logic4) (pci : SimbusPci User Handle),
      pci.pciClk ≠ level → (exchangeAt level).start pci = .finish () pci :=
    fun level pci away => Program.start_whileDo_false (by simpa using away)
  constructor
  · intro pci isOne
    obtain ⟨later, waits, answers⟩ := exchangeAt_start isOne
    refine ⟨_, by rw [halves, waits, Behavior.await_bind], ?_, ?_⟩
    · intro signals _
      rw [answers, halves]
    · intro signals isZero
      have away : (pci.sample signals).pciClk ≠ .one := by
        rw [show (pci.sample signals).pciClk = _ from isZero]
        nofun
      rw [answers, passed _ _ away, Behavior.finish_bind]
  · intro pci isZero
    obtain ⟨later, waits, answers⟩ := exchangeAt_start isZero
    refine ⟨_, by rw [waits, Behavior.await_bind], ?_, ?_⟩
    · intro signals _
      rw [answers]
    · intro signals isOne
      have away : (pci.sample signals).pciClk ≠ .zero := by
        rw [show (pci.sample signals).pciClk = _ from isOne]
        nofun
      rw [answers, passed _ _ away, Behavior.finish_bind]

section Clock

variable {high low done : SimbusPci User Handle →
  Behavior (SimbusPci User Handle) Reply Value}
variable {dev : Fin n}
variable {pci : SimbusPci User Handle}
variable {segment later : List (Exchange n)}

/-- What a client does until the next edge. -/
structure ClientClock
    (client : Behavior (SimbusPci User Handle) Reply Value)
    (done : SimbusPci User Handle →
      Behavior (SimbusPci User Handle) Reply Value)
    (dev : Fin n)
    (pci : SimbusPci User Handle)
    (segment later : List (Exchange n)) : Prop where
  drives : ∀ exchange ∈ segment, (exchange.reports dev).bi = pci.out
  resumes : client.resumeAll (repliesIn segment dev) =
    done (pci.sampleAll (sentIn segment dev))
  reports : Reports dev (done (pci.sampleAll (sentIn segment dev))) later

/-- One exchange in front of a client that goes on to the edge. -/
theorem ClientClock.cons
    {client : Behavior (SimbusPci User Handle) Reply Value}
    {next : Reply → Behavior (SimbusPci User Handle) Reply Value}
    {exchange : Exchange n}
    (waits : client = .await pci next)
    (reports : Reports dev client (exchange :: segment ++ later))
    (clocked : ClientClock (next (.until (exchange.sends dev))) done dev
      (pci.sample (exchange.sends dev)) segment later) :
    ClientClock client done dev pci (exchange :: segment) later where
  drives := List.forall_mem_cons.mpr
    ⟨reports.first (by rw [waits]; rfl), clocked.drives⟩
  resumes := by
    rw [waits]
    exact clocked.resumes
  reports := clocked.reports

/-- A client that waits for an edge, by the level of the clock. -/
def atLevel
    (high low : SimbusPci User Handle →
      Behavior (SimbusPci User Handle) Reply Value) :
    Logic4 → SimbusPci User Handle →
      Behavior (SimbusPci User Handle) Reply Value
  | .one => high
  | .zero => low
  | .x => low
  | .z => low

theorem PassesEdge.toEdge
    {level : Logic4}
    (passes : PassesEdge high low done)
    (toEdge : ToEdge level segment)
    (isLevel : pci.pciClk = level)
    (assembled : ∀ exchange ∈ segment, exchange.Assembled)
    (reports : Reports dev (atLevel high low level pci) (segment ++ later)) :
    ClientClock (atLevel high low level pci) done dev pci segment later := by
  induction toEdge generalizing pci with
  | @rises last isOne =>
      obtain ⟨next, waits, _, rises⟩ := passes.atZero pci isLevel
      have sent := (assembled last List.mem_cons_self).sameClk dev
      have passed := rises (last.sends dev) (sent.trans isOne)
      have after := reports.later
      rw [atLevel, waits, Behavior.resume_await, passed] at after
      refine ClientClock.cons waits reports ⟨List.forall_mem_nil _, ?_, ?_⟩
      · exact passed
      · exact after
  | @low exchange segment isZero toEdge inductionHypothesis =>
      obtain ⟨next, waits, stays, _⟩ := passes.atZero pci isLevel
      obtain ⟨first, others⟩ := List.forall_mem_cons.mp assembled
      have sent := (first.sameClk dev).trans isZero
      have stayed := stays (exchange.sends dev) sent
      have after := reports.later
      rw [atLevel, waits, Behavior.resume_await, stayed] at after
      refine ClientClock.cons waits reports ?_
      rw [stayed]
      exact inductionHypothesis sent others after
  | @falls exchange segment isZero toEdge inductionHypothesis =>
      obtain ⟨next, waits, _, falls⟩ := passes.atOne pci isLevel
      obtain ⟨first, others⟩ := List.forall_mem_cons.mp assembled
      have sent := (first.sameClk dev).trans isZero
      have fell := falls (exchange.sends dev) sent
      have after := reports.later
      rw [atLevel, waits, Behavior.resume_await, fell] at after
      refine ClientClock.cons waits reports ?_
      rw [fell]
      exact inductionHypothesis sent others after
  | @high exchange segment isOne toEdge inductionHypothesis =>
      obtain ⟨next, waits, stays, _⟩ := passes.atOne pci isLevel
      obtain ⟨first, others⟩ := List.forall_mem_cons.mp assembled
      have sent := (first.sameClk dev).trans isOne
      have stayed := stays (exchange.sends dev) sent
      have after := reports.later
      rw [atLevel, waits, Behavior.resume_await, stayed] at after
      refine ClientClock.cons waits reports ?_
      rw [stayed]
      exact inductionHypothesis sent others after

/-- From one edge to the next. -/
theorem PassesEdge.clocked
    (passes : PassesEdge high low done)
    (toEdge : ToEdge .one segment)
    (isOne : pci.pciClk = .one)
    (assembled : ∀ exchange ∈ segment, exchange.Assembled)
    (reports : Reports dev (high pci) (segment ++ later)) :
    ClientClock (high pci) done dev pci segment later :=
  passes.toEdge toEdge isOne assembled reports

/-! ## What is seen at an edge -/

/-- The exchange with the edge comes last. -/
theorem ToEdge.last
    {level : Logic4}
    (toEdge : ToEdge level segment) :
    ∃ before last, segment = before ++ [last] ∧ last.pciClk = .one := by
  induction toEdge with
  | @rises last isOne =>
      exact ⟨[], last, rfl, isOne⟩
  | @low exchange segment _ _ inductionHypothesis =>
      obtain ⟨before, last, rfl, isOne⟩ := inductionHypothesis
      exact ⟨exchange :: before, last, rfl, isOne⟩
  | @falls exchange segment _ _ inductionHypothesis =>
      obtain ⟨before, last, rfl, isOne⟩ := inductionHypothesis
      exact ⟨exchange :: before, last, rfl, isOne⟩
  | @high exchange segment _ _ inductionHypothesis =>
      obtain ⟨before, last, rfl, isOne⟩ := inductionHypothesis
      exact ⟨exchange :: before, last, rfl, isOne⟩

end Clock

end

/-! ## A master, a target and bystanders -/

/-- All lines but the parity lines, which are driven a clock later. -/
def BiBit.Shared (bit : BiBit) : Prop :=
  bit ≠ .par ∧ bit ≠ .par64

/-- Nothing but parity is driven. -/
def QuietBus (out : BiSignals) : Prop :=
  ∀ bit : BiBit, bit.Shared → out.get bit = .z

section

variable {User₁ Handle₁ Value₁ User₂ Handle₂ Value₂ : Type}
variable {User Handle Value : Fin n → Type}
variable {host dev : Fin n}
variable {high₁ low₁ done₁ : SimbusPci User₁ Handle₁ →
  Behavior (SimbusPci User₁ Handle₁) Reply Value₁}
variable {high₂ low₂ done₂ : SimbusPci User₂ Handle₂ →
  Behavior (SimbusPci User₂ Handle₂) Reply Value₂}
variable {high low done : ∀ other, SimbusPci (User other) (Handle other) →
  Behavior (SimbusPci (User other) (Handle other)) Reply (Value other)}
variable {master : SimbusPci User₁ Handle₁}
variable {target : SimbusPci User₂ Handle₂}
variable {others : ∀ other, SimbusPci (User other) (Handle other)}
variable {segment later : List (Exchange n)}

/-- What all clients drive. -/
def outsOf
    (host dev : Fin n)
    (master : SimbusPci User₁ Handle₁)
    (target : SimbusPci User₂ Handle₂)
    (others : ∀ other, SimbusPci (User other) (Handle other))
    (client : Fin n) : BiSignals :=
  if client = host then
    master.out
  else if client = dev then
    target.out
  else
    (others client).out

/-- One clock of a bus on which a master and a target drive. -/
structure BusClock
    (host dev : Fin n)
    (master : SimbusPci User₁ Handle₁)
    (target : SimbusPci User₂ Handle₂)
    (others : ∀ other, SimbusPci (User other) (Handle other))
    (segment : List (Exchange n)) : Prop where
  hostSees : ∀ bit : BiBit, bit.Shared → master.out.get bit = .z →
    (master.sampleAll (sentIn segment host)).seen.get bit = target.out.get bit
  targetSees : ∀ bit : BiBit, bit.Shared → target.out.get bit = .z →
    (target.sampleAll (sentIn segment dev)).seen.get bit = master.out.get bit
  otherSees : ∀ other, other ≠ host → other ≠ dev →
    ∀ bit : BiBit, bit.Shared → target.out.get bit = .z →
      ((others other).sampleAll (sentIn segment other)).seen.get bit =
        master.out.get bit
  hostEdge : (master.sampleAll (sentIn segment host)).pciClk = .one
  targetEdge : (target.sampleAll (sentIn segment dev)).pciClk = .one
  otherEdge : ∀ other, other ≠ host → other ≠ dev →
    ((others other).sampleAll (sentIn segment other)).pciClk = .one
  hostMode : (master.sampleAll (sentIn segment host)).pcixcap ≠ .one
  targetMode : (target.sampleAll (sentIn segment dev)).pcixcap ≠ .one
  drives : ∀ client, ∀ exchange ∈ segment,
    (exchange.reports client).bi = outsOf host dev master target others client

/-- All other clients leave DEVSEL# alone. -/
def LeavesDevsel
    (dev : Fin n)
    (exchanges : List (Exchange n)) : Prop :=
  ∀ exchange ∈ exchanges, ∀ client, client ≠ dev →
    (exchange.reports client).bi.devselN = .z

/-- One client, and no other, drives DEVSEL#. -/
def ClaimedBy
    (dev : Fin n)
    (exchanges : List (Exchange n)) : Prop :=
  LeavesDevsel dev exchanges ∧
    ∃ exchange ∈ exchanges, (exchange.reports dev).bi.devselN = .zero

theorem LeavesDevsel.append
    {first : List (Exchange n)}
    (leaves : LeavesDevsel dev first)
    (leavesLater : LeavesDevsel dev later) :
    LeavesDevsel dev (first ++ later) := by
  intro exchange member
  rcases List.mem_append.mp member with inFirst | inLater
  · exact leaves exchange inFirst
  · exact leavesLater exchange inLater

theorem ClaimedBy.append
    {first : List (Exchange n)}
    (claimed : ClaimedBy dev first)
    (leavesLater : LeavesDevsel dev later) :
    ClaimedBy dev (first ++ later) := by
  obtain ⟨leaves, exchange, member, drives⟩ := claimed
  exact ⟨leaves.append leavesLater, exchange, List.mem_append_left _ member,
    drives⟩

end

end Simbus.Pci
