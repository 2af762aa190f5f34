import Simbus.Pci.ConfigCycle

/-!
# Configuration accesses on a whole bus

A host reads or writes the configuration space of one device number while all
other clients wait.  Clock by clock the target with that identifier answers, and
nothing happens to the others.
-/

namespace Simbus.Pci

open FourValued Clocked PciProtocol

variable {n : Nat}

theorem Clocks.succ
    {count : Nat}
    {exchanges : List (Exchange n)}
    (clocks : Clocks (count + 1) exchanges) :
    ∃ first later, exchanges = first ++ later ∧ ToEdge .one first ∧
      Clocks count later := by
  cases clocks with
  | clock toEdge clocks =>
      exact ⟨_, _, rfl, toEdge, clocks⟩

section

variable {User₀ Handle₀ : Type}

/-- A target that waits on an idle bus, right after an edge. -/
structure WaitsIdle (pci : SimbusPci User₀ Handle₀) : Prop where
  atEdge : pci.pciClk = .one
  idle : pci.targetState = .idle
  identBelow : pci.ident < 16
  quiet : QuietBus pci.out
  noBreak : pci.device.breakFlag = false

/-- What `simbus_pci_wait` does after the machine. -/
def afterMachine
    (machine : Call User₀ Handle₀ Unit)
    (useIrq : BitVec 64)
    (clks : Nat) : Call User₀ Handle₀ (Except Int (BitVec 64)) := do
  let pci ← Program.getState
  if pci.device.breakFlag ∧ pci.targetState = .idle then
    return .error simbusPciBreak
  else
    waitLoop machine useIrq clks (intrActive pci)

/-- What a wait does after its exchanges. -/
def afterExchanges
    (machine : Call User₀ Handle₀ Unit)
    (clks : Nat)
    (rc : Int) : SimbusPci User₀ Handle₀ →
      Behavior (SimbusPci User₀ Handle₀) Reply (Except Int (BitVec 64)) :=
  if rc < 0 then (pure (.error rc) : Call User₀ Handle₀ _).start
  else (afterEdge machine 0 clks).start

end

/-! ## The bystanders -/

section

variable {User Handle : Fin n → Type}
variable {host dev : Fin n}
variable {callbacks : ∀ other, Callbacks (User other) (Handle other)}
variable {requestBus : ∀ other, Call (User other) (Handle other) Unit}
variable {initial now : ∀ other, SimbusPci (User other) (Handle other)}
variable {clients : ∀ other,
  Behavior (SimbusPci (User other) (Handle other)) Reply
    (Except Int (BitVec 64))}
variable {clks : Fin n → Nat}
variable {count : Nat}
variable {state state' : TargetState}
variable {segment later : List (Exchange n)}

/-- The target machine of every client. -/
abbrev machineOf
    (callbacks : ∀ other, Callbacks (User other) (Handle other))
    (requestBus : ∀ other, Call (User other) (Handle other) Unit)
    (other : Fin n) : Call (User other) (Handle other) Unit :=
  pciTargetStateMachine (callbacks other) (requestBus other)

/-- The bystanders after some clocks, with a number of clocks left. -/
structure Bystanders
    (host dev : Fin n)
    (callbacks : ∀ other, Callbacks (User other) (Handle other))
    (requestBus : ∀ other, Call (User other) (Handle other) Unit)
    (initial now : ∀ other, SimbusPci (User other) (Handle other))
    (clients : ∀ other,
      Behavior (SimbusPci (User other) (Handle other)) Reply
        (Except Int (BitVec 64)))
    (clks : Fin n → Nat)
    (count : Nat)
    (state : TargetState)
    (later : List (Exchange n)) : Prop where
  waits : ∀ other, other ≠ host → other ≠ dev →
    ∃ mask, clients other =
      (waitLoop (machineOf callbacks requestBus other) 0 (clks other + count)
        mask).start (now other)
  reports : ∀ other, other ≠ host → other ≠ dev →
    Reports other (clients other) later
  idle : ∀ other, other ≠ host → other ≠ dev → WaitsIdle (initial other)
  device : ∀ other, other ≠ host → other ≠ dev →
    (now other).device = (initial other).device
  out : ∀ other, other ≠ host → other ≠ dev →
    (now other).out = (initial other).out
  ident : ∀ other, other ≠ host → other ≠ dev →
    (now other).ident = (initial other).ident
  atEdge : ∀ other, other ≠ host → other ≠ dev → (now other).pciClk = .one
  state : ∀ other, other ≠ host → other ≠ dev → (now other).targetState = state

theorem Bystanders.quiet
    (bystanders : Bystanders host dev callbacks requestBus initial now clients
      clks count state later) :
    ∀ other, other ≠ host → other ≠ dev → QuietBus (now other).out := by
  intro other notHost notDev
  rw [bystanders.out other notHost notDev]
  exact (bystanders.idle other notHost notDev).quiet

/-- One clock of bystanders whose machines have nothing to do. -/
theorem Bystanders.clock
    (bystanders : Bystanders host dev callbacks requestBus initial now clients
      clks (count + 1) state (segment ++ later))
    (clocked : ∀ other, other ≠ host → other ≠ dev →
      ClientClock
        ((waitEdge.start (now other)).bind
          (afterExchanges (machineOf callbacks requestBus other)
            (clks other + count)))
        (afterExchanges (machineOf callbacks requestBus other)
          (clks other + count) 0) other (now other) segment later)
    (atEdge : ∀ other, other ≠ host → other ≠ dev →
      ((now other).sampleAll (sentIn segment other)).pciClk = .one)
    (unselected : ∀ other, other ≠ host → other ≠ dev →
      (targetAction
        ((now other).sampleAll (sentIn segment other))).selects = false)
    (follows : ∀ other, other ≠ host → other ≠ dev →
      (followBus ((now other).sampleAll (sentIn segment other))).targetState =
        state') :
    Bystanders host dev callbacks requestBus initial
      (fun other => followBus ((now other).sampleAll (sentIn segment other)))
      (fun other => (clients other).resumeAll (repliesIn segment other))
      clks count state' later := by
  have goesOn : ∀ other, other ≠ host → other ≠ dev →
      afterExchanges (machineOf callbacks requestBus other) (clks other + count)
          0 ((now other).sampleAll (sentIn segment other)) =
        (waitLoop (machineOf callbacks requestBus other) 0 (clks other + count)
          (intrActive
            (followBus ((now other).sampleAll (sentIn segment other))))).start
          (followBus ((now other).sampleAll (sentIn segment other))) := by
    intro other notHost notDev
    have idle := bystanders.idle other notHost notDev
    have identBelow :
        ((now other).sampleAll (sentIn segment other)).ident < 16 := by
      rw [sampleAll_ident, bystanders.ident other notHost notDev]
      exact idle.identBelow
    have noBreak : ((now other).sampleAll
        (sentIn segment other)).device.breakFlag = false := by
      rw [sampleAll_device, bystanders.device other notHost notDev]
      exact idle.noBreak
    exact afterEdge_unselected (callbacks other) (requestBus other) _ identBelow
      (unselected other notHost notDev) noBreak
  have resumes : ∀ other, other ≠ host → other ≠ dev →
      (clients other).resumeAll (repliesIn segment other) =
        afterExchanges (machineOf callbacks requestBus other)
          (clks other + count) 0
          ((now other).sampleAll (sentIn segment other)) := by
    intro other notHost notDev
    obtain ⟨mask, waits⟩ := bystanders.waits other notHost notDev
    rw [waits]
    exact (congrArg (Behavior.resumeAll · _) (waitLoop_start _ _ mask _)).trans
      (clocked other notHost notDev).resumes
  exact
    { waits := by
        intro other notHost notDev
        exact ⟨_, (resumes other notHost notDev).trans
          (goesOn other notHost notDev)⟩
      reports := by
        intro other notHost notDev
        rw [resumes other notHost notDev]
        exact (clocked other notHost notDev).reports
      idle := bystanders.idle
      device := by
        intro other notHost notDev
        rw [followBus_keeps.1, sampleAll_device]
        exact bystanders.device other notHost notDev
      out := by
        intro other notHost notDev
        rw [followBus_keeps.2.1, sampleAll_out]
        exact bystanders.out other notHost notDev
      ident := by
        intro other notHost notDev
        rw [followBus_keeps.2.2.1, sampleAll_ident]
        exact bystanders.ident other notHost notDev
      atEdge := by
        intro other notHost notDev
        rw [followBus_keeps.2.2.2]
        exact atEdge other notHost notDev
      state := follows }

end

/-! ## What master and target drive -/

section

variable {User₀ Handle₀ : Type}
variable {pci : SimbusPci User₀ Handle₀}

section Config

variable {cmd : BitVec 4}
variable {out : BiSignals}
variable {slot : Fin 16}
variable {dwAddr : BitVec 16}

end Config

end

/-! ## A whole read -/

section

variable {User₁ Handle₁ Value₁ User₂ Handle₂ : Type}
variable {User Handle : Fin n → Type}
variable {host dev : Fin n}
variable {slot : Fin 16}
variable {dwAddr : BitVec 16}
variable {callbacks₂ : Callbacks User₂ Handle₂}
variable {requestBus₂ : Call User₂ Handle₂ Unit}
variable {callbacks : ∀ other, Callbacks (User other) (Handle other)}
variable {requestBus : ∀ other, Call (User other) (Handle other) Unit}
variable {granted : SimbusPci User₁ Handle₁}
variable {target : SimbusPci User₂ Handle₂}
variable {others : ∀ other, SimbusPci (User other) (Handle other)}
variable {clients : ∀ other,
  Behavior (SimbusPci (User other) (Handle other)) Reply
    (Except Int (BitVec 64))}
variable {clks₂ : Nat}
variable {clks : Fin n → Nat}
variable {count : Nat}
variable {exchanges segment later : List (Exchange n)}

/-- Before the address phase of a configuration cycle. -/
structure ConfigStart
    (host dev : Fin n)
    (slot : Fin 16)
    (granted : SimbusPci User₁ Handle₁)
    (target : SimbusPci User₂ Handle₂)
    (others : ∀ other, SimbusPci (User other) (Handle other)) : Prop where
  apart : dev ≠ host
  masterEdge : granted.pciClk = .one
  targetWaits : WaitsIdle target
  isSlot : target.ident = slot.val
  othersWait : ∀ other, other ≠ host → other ≠ dev → WaitsIdle (others other)
  notSlot : ∀ other, other ≠ host → other ≠ dev →
    (others other).ident ≠ slot.val

/-- Bystanders at the beginning. -/
theorem ConfigStart.bystanders
    (start : ConfigStart host dev slot granted target others)
    (waits : ∀ other, other ≠ host → other ≠ dev →
      ∃ mask, clients other =
        (waitLoop (machineOf callbacks requestBus other) 0 (clks other + count)
          mask).start (others other))
    (reports : ∀ other, other ≠ host → other ≠ dev →
      Reports other (clients other) exchanges) :
    Bystanders host dev callbacks requestBus others others clients clks count
      .idle exchanges where
  waits := waits
  reports := reports
  idle := start.othersWait
  device := fun _ _ _ => rfl
  out := fun _ _ _ => rfl
  ident := fun _ _ _ => rfl
  atEdge := fun other notHost notDev =>
    (start.othersWait other notHost notDev).atEdge
  state := fun other notHost notDev =>
    (start.othersWait other notHost notDev).idle

/-- What is left of a client after some exchanges. -/
structure ComesTo
    {User₀ Handle₀ Value₀ : Type}
    (client : Behavior (SimbusPci User₀ Handle₀) Reply Value₀)
    (dev : Fin n)
    (segment later : List (Exchange n))
    (behavior : Behavior (SimbusPci User₀ Handle₀) Reply Value₀) : Prop where
  resumes : client.resumeAll (repliesIn segment dev) = behavior
  reports : Reports dev behavior later

theorem ComesTo.trans
    {User₀ Handle₀ Value₀ : Type}
    {client middle behavior : Behavior (SimbusPci User₀ Handle₀) Reply Value₀}
    {segment' : List (Exchange n)}
    (first : ComesTo client dev segment (segment' ++ later) middle)
    (second : ComesTo middle dev segment' later behavior) :
    ComesTo client dev (segment ++ segment') later behavior where
  resumes := by
    rw [repliesIn, List.map_append, Behavior.resumeAll_append, first.resumes,
      second.resumes]
  reports := second.reports

section Read

variable {ben resultx val : BitVec 32}
variable {master : SimbusPci User₁ Handle₁}
variable {now : ∀ other, SimbusPci (User other) (Handle other)}
variable {next : ReadResult → SimbusPci User₁ Handle₁ →
  Behavior (SimbusPci User₁ Handle₁) Reply Value₁}
variable {after : SimbusPci User₂ Handle₂ →
  Behavior (SimbusPci User₂ Handle₂) Reply (Except Int (BitVec 64))}

end Read

/-! ## A whole write -/

section Write

variable {val ben : BitVec 32}
variable {addr : BitVec 64}
variable {master : SimbusPci User₁ Handle₁}
variable {now : ∀ other, SimbusPci (User other) (Handle other)}
variable {next : Int → SimbusPci User₁ Handle₁ →
  Behavior (SimbusPci User₁ Handle₁) Reply Value₁}
variable {after : SimbusPci User₂ Handle₂ →
  Behavior (SimbusPci User₂ Handle₂) Reply (Except Int (BitVec 64))}

end Write

/-! ## Accesses from the grant to the end -/

section Access

variable {callbacks₁ : Callbacks User₁ Handle₁}
variable {stack : Nat}
variable {pci : SimbusPci User₁ Handle₁}
variable {request : List Reply}
variable {mask₂ : BitVec 64}
variable {masks : Fin n → BitVec 64}

/-- A target in `simbus_pci_wait`, with some clocks left. -/
abbrev waitingTarget
    (callbacks₂ : Callbacks User₂ Handle₂)
    (requestBus₂ : Call User₂ Handle₂ Unit)
    (clks : Nat)
    (mask : BitVec 64)
    (target : SimbusPci User₂ Handle₂) :
    Behavior (SimbusPci User₂ Handle₂) Reply (Except Int (BitVec 64)) :=
  (waitLoop (pciTargetStateMachine callbacks₂ requestBus₂) 0 clks mask).start
    target

/-- The target has served a cycle and waits again. -/
def Served
    (callbacks₂ : Callbacks User₂ Handle₂)
    (requestBus₂ : Call User₂ Handle₂ Unit)
    (clks : Nat)
    (client : Behavior (SimbusPci User₂ Handle₂) Reply (Except Int (BitVec 64)))
    (device : Device User₂ Handle₂) : Prop :=
  ∃ final, client =
      (afterMachine (pciTargetStateMachine callbacks₂ requestBus₂) 0 clks).start
        final ∧
    final.device = device ∧ final.targetState = .idle ∧ final.pciClk = .one

/-- The bystander waits on, and nothing has happened to its device. -/
def Undisturbed
    (callbacks₂ : Callbacks User₂ Handle₂)
    (requestBus₂ : Call User₂ Handle₂ Unit)
    (clks : Nat)
    (client : Behavior (SimbusPci User₂ Handle₂) Reply (Except Int (BitVec 64)))
    (device : Device User₂ Handle₂) : Prop :=
  ∃ mask final, client = waitingTarget callbacks₂ requestBus₂ clks mask final ∧
    final.device = device ∧ final.targetState = .idle ∧ final.pciClk = .one

/-- A wait that goes on shows the state it goes on from. -/
theorem waitLoop_state
    {target : SimbusPci User₂ Handle₂}
    (machine : Call User₂ Handle₂ Unit)
    (clks : Nat)
    (mask : BitVec 64)
    (atEdge : target.pciClk = .one) :
    ((waitLoop machine 0 clks mask).start target).state = target := by
  cases clks with
  | zero =>
      rfl
  | succ clks =>
      have stays : decide (target.pciClk ≠ .zero) = true := by
        rw [atEdge]
        rfl
      obtain ⟨next, waits, _⟩ :=
        @exchangeWhileClk_start _ _ (fun clk => clk ≠ .zero) target stays
      rw [waitLoop_start, waitEdge, Program.start_bind, waits]
      rfl

theorem Served.device
    {client : Behavior (SimbusPci User₂ Handle₂) Reply (Except Int (BitVec 64))}
    {device : Device User₂ Handle₂}
    (served : Served callbacks₂ requestBus₂ clks₂ client device) :
    client.state.device = device := by
  obtain ⟨final, rfl, isDevice, _, atEdge⟩ := served
  rw [afterMachine, Program.start_bind, Program.start_getState,
    Behavior.finish_bind]
  split
  · exact isDevice
  · rw [waitLoop_state _ _ _ atEdge]
    exact isDevice

theorem Undisturbed.device
    {client : Behavior (SimbusPci User₂ Handle₂) Reply (Except Int (BitVec 64))}
    {device : Device User₂ Handle₂}
    (undisturbed : Undisturbed callbacks₂ requestBus₂ clks₂ client device) :
    client.state.device = device := by
  obtain ⟨mask, final, rfl, isDevice, _, atEdge⟩ := undisturbed
  rw [waitLoop_state _ _ _ atEdge]
  exact isDevice

theorem Bystanders.undisturbed
    {now : ∀ other, SimbusPci (User other) (Handle other)}
    (bystanders : Bystanders host dev callbacks requestBus others now clients
      clks 0 .idle exchanges) :
    ∀ other, other ≠ host → other ≠ dev →
      Undisturbed (callbacks other) (requestBus other) (clks other)
        (clients other) (others other).device := by
  intro other notHost notDev
  obtain ⟨mask, waits⟩ := bystanders.waits other notHost notDev
  exact ⟨mask, now other, waits, bystanders.device other notHost notDev,
    bystanders.state other notHost notDev,
    bystanders.atEdge other notHost notDev⟩

end Access

end

end Simbus.Pci
