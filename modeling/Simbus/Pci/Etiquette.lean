import Simbus.Clocked.Guarantee
import Simbus.Pci.Lockstep

/-!
# Bus etiquette of a master

What a conventional PCI master shows on REQ#, FRAME# and IRDY#, clock by
clock.  It changes these outputs at rising edges only, it requests until it
starts, and it starts only when it sees GNT# at 0 on an idle bus.  The
etiquette is a monitor on the exchanges of one client.
-/

namespace Simbus.Pci

open FourValued Clocked PciProtocol

/-- The outputs that matter for the ownership of the bus. -/
structure Drive where
  reqN : Logic4
  frameN : Logic4
  irdyN : Logic4
  deriving DecidableEq

/-- The outputs a READY reports; REQ# is inactive if it is not named. -/
def driveOf (signals : ClientSignals) : Drive where
  reqN := signals.reqN.getD .one
  frameN := signals.bi.frameN
  irdyN := signals.bi.irdyN

namespace Drive

/-- The bus is released. -/
def quiet (reqN : Logic4) : Drive := ⟨reqN, .z, .z⟩

/-- Neither requesting nor driving. -/
def idle : Drive := quiet .one

/-- Requesting the bus. -/
def requesting : Drive := quiet .zero

/-- FRAME# and IRDY# driven to 1 after a transaction. -/
def releasing : Drive := ⟨.one, .one, .one⟩

/-- FRAME# or IRDY# is driven to 0. -/
def Holds (drive : Drive) : Prop :=
  drive.frameN = .zero ∨ drive.irdyN = .zero

/-- A transaction is under way. -/
structure Owns (drive : Drive) : Prop where
  reqN : drive.reqN = .one
  holds : drive.Holds

/-- Some of FRAME# and IRDY# is driven. -/
def Active (drive : Drive) : Prop :=
  drive.frameN ≠ .z ∨ drive.irdyN ≠ .z

/-- The outputs of a master in conventional mode. -/
inductive Proper : Drive → Prop where
  | idle : Proper idle
  | requesting : Proper requesting
  | releasing : Proper releasing
  | owns {drive : Drive} : drive.Owns → Proper drive

theorem Holds.active
    {drive : Drive}
    (holds : drive.Holds) :
    drive.Active := by
  rcases holds with frames | readies
  · exact .inl (by simp [frames])
  · exact .inr (by simp [readies])

theorem not_active_quiet
    (reqN : Logic4) :
    ¬ (quiet reqN).Active := by
  simp [Active, quiet]

theorem not_holds_quiet
    (reqN : Logic4) :
    ¬ (quiet reqN).Holds := fun holds =>
  not_active_quiet reqN holds.active

/-- Only a requesting master drives REQ# to 0. -/
theorem Proper.eq_requesting
    {drive : Drive}
    (proper : drive.Proper)
    (requests : drive.reqN = .zero) :
    drive = Drive.requesting := by
  cases proper with
  | idle =>
      cases requests
  | requesting =>
      rfl
  | releasing =>
      cases requests
  | owns owns =>
      rw [owns.reqN] at requests
      cases requests

end Drive

/-! ## The monitor -/

/-- What a master has shown and seen in the last exchange. -/
structure Manners where
  phase : Fin 4
  shown : Drive
  gntN : Logic4
  frameN : Logic4
  irdyN : Logic4

namespace Manners

/-- The bus is granted and idle. -/
structure MayStart (manners : Manners) : Prop where
  granted : manners.gntN = .zero
  frameN : manners.frameN ≠ .zero
  irdyN : manners.irdyN ≠ .zero

/-- The first clock of a transaction. -/
structure Starts (manners : Manners) (drive : Drive) : Prop where
  mayStart : manners.MayStart
  owns : drive.Owns
  frames : drive.frameN = .zero

/-- What a master may show after a rising edge. -/
inductive Next (manners : Manners) : Drive → Prop where
  | rest :
      manners.shown = .idle →
      Next manners .idle
  | request :
      manners.shown = .idle →
      Next manners .requesting
  | wait :
      manners.shown = .requesting →
      Next manners .requesting
  | start {drive : Drive} :
      manners.shown = .idle ∨ manners.shown = .requesting →
      manners.Starts drive →
      Next manners drive
  | proceed {drive : Drive} :
      manners.shown.Owns →
      drive.Proper →
      Next manners drive
  | settle :
      manners.shown = .releasing →
      Next manners .idle

/-- A master changes its outputs at the rising edge only. -/
def Allows (manners : Manners) (drive : Drive) : Prop :=
  if manners.phase = 0 then manners.Next drive else drive = manners.shown

/-- What the master knows after an UNTIL. -/
def after
    (manners : Manners)
    (drive : Drive)
    (signals : SendSignals) : Manners where
  phase := manners.phase + 1
  shown := drive
  gntN := signals.gntN
  frameN := signals.bi.frameN
  irdyN := signals.bi.irdyN

/-- Before the first UNTIL. -/
def initial : Manners where
  phase := 0
  shown := .idle
  gntN := .x
  frameN := .x
  irdyN := .x

theorem Next.proper
    {manners : Manners}
    {drive : Drive}
    (next : manners.Next drive) :
    drive.Proper := by
  cases next with
  | rest _ =>
      exact .idle
  | request _ =>
      exact .requesting
  | wait _ =>
      exact .requesting
  | start _ starts =>
      exact .owns starts.owns
  | proceed _ proper =>
      exact proper
  | settle _ =>
      exact .idle

end Manners

/-- The UNTIL a server on a conventional bus sends in the next phase. -/
structure Conventional
    (manners : Manners)
    (signals : SendSignals) : Prop where
  pciClk : signals.pciClk = clkVal (manners.phase + 1)
  pcixcap : signals.pcixcap = .zero

/-- The etiquette of a client that reports its state by `report`. -/
def etiquette
    {State : Type}
    (report : State → ClientSignals) : Monitor State Reply where
  Phase := Manners
  check := fun manners state => manners.Allows (driveOf (report state))
  advance := fun manners state reply next =>
    ∃ signals,
      reply = .until signals ∧
        Conventional manners signals ∧
        next = manners.after (driveOf (report state)) signals

/-- From here on the client keeps to the etiquette. -/
def WellMannered (client : BusClient) (manners : Manners) : Prop :=
  Meets (etiquette client.report) (fun _ _ _ => True) manners
    client.behavior

/-- A client that never drives FRAME# or IRDY#, and else does what it likes. -/
def Bystander (client : BusClient) : Prop :=
  ∀ state, ¬ (driveOf (client.report state)).Active

/-- What a waiting client shows is allowed. -/
theorem WellMannered.allows
    {client : BusClient}
    {manners : Manners}
    {report : ClientSignals}
    (wellMannered : WellMannered client manners)
    (ready : client.ready = some report) :
    manners.Allows (driveOf report) := by
  unfold BusClient.ready at ready
  split at ready
  · rename_i state waits
    rw [Option.some.injEq] at ready
    subst ready
    exact ((meets_of_waits waits).mp wellMannered).1
  · cases ready

/-- A well-mannered client stays so after an UNTIL of the server. -/
theorem WellMannered.reply
    {client : BusClient}
    {manners : Manners}
    {report : ClientSignals}
    {signals : SendSignals}
    (wellMannered : WellMannered client manners)
    (ready : client.ready = some report)
    (conventional : Conventional manners signals) :
    WellMannered (client.reply (.until signals))
      (manners.after (driveOf report) signals) := by
  unfold BusClient.ready at ready
  split at ready
  · rename_i state waits
    rw [Option.some.injEq] at ready
    subst ready
    exact ((meets_of_waits waits).mp wellMannered).2 _ _
      ⟨signals, rfl, conventional, rfl⟩
  · cases ready

end Simbus.Pci
