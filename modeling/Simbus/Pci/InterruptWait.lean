import Simbus.Clocked.Returns
import Simbus.Pci.Interrupts
import Simbus.Pci.Master
import Simbus.Pci.TargetIdle

/-!
# Waiting for interrupts on PCI

`simbus_pci_wait` looks for enabled interrupts after each of its clocks, or at once
if it has none.  A clock of the wait is a rising edge and the transaction that the
target machine serves from there.  The result is 1 if any interrupt is active at
the end, enabled or not.
-/

namespace Simbus.Pci

open FourValued Clocked

section

variable {User Handle : Type}

/-! ## What is active -/

/-- An interrupt of the mask whose line is at 0. -/
def InterruptActive
    (irq : Option (BitVec 64))
    (pci : SimbusPci User Handle)
    (line : Fin 4)
    (idx : Fin 16) : Prop :=
  (irq.getD 0).getLsbD (16 * line.val + idx.val) = true ∧
    pci.pciIntN line idx = .zero

/-- A mask has the bits of exactly the active interrupts. -/
def ActiveMask
    (irq : Option (BitVec 64))
    (pci : SimbusPci User Handle)
    (active : BitVec 64) : Prop :=
  ∀ line idx, active.getLsbD (16 * line.val + idx.val) = true ↔
    InterruptActive irq pci line idx

/-- Some enabled interrupt is active. -/
def AnyActive
    (irq : Option (BitVec 64))
    (pci : SimbusPci User Handle) : Prop :=
  ∃ line idx, InterruptActive irq pci line idx

/-- Some interrupt is active, enabled or not. -/
def AnyLine (pci : SimbusPci User Handle) : Prop :=
  ∃ line idx, pci.pciIntN line idx = .zero

/-- A mask is told by its 64 places. -/
theorem mask_eq_zero_iff (mask : BitVec 64) :
    mask = 0 ↔ ∀ (line : Fin 4) (idx : Fin 16),
      ¬ mask.getLsbD (16 * line.val + idx.val) = true := by
  constructor
  · rintro rfl line idx
    simp
  · intro none
    apply BitVec.eq_of_getLsbD_eq
    intro bit bounded
    have idxBound : bit % 16 < 16 := Nat.mod_lt _ (by decide)
    have lineBound : bit / 16 < 4 := by omega
    have missing := none ⟨bit / 16, lineBound⟩ ⟨bit % 16, idxBound⟩
    have place : 16 * (bit / 16) + bit % 16 = bit := Nat.div_add_mod bit 16
    simp only [place] at missing
    simpa using missing

theorem intrActive_getLsbD
    (pci : SimbusPci User Handle)
    (line : Fin 4)
    (idx : Fin 16) :
    (intrActive pci).getLsbD (16 * line.val + idx.val) = true ↔
      pci.pciIntN line idx = .zero := by
  rw [intrActive_eq, activeMask_getLsbD, decide_eq_true_eq]

/-- The enabled ones of the active interrupts. -/
theorem intrActive_activeMask
    (irq : Option (BitVec 64))
    (pci : SimbusPci User Handle) :
    ActiveMask irq pci (irq.getD 0 &&& intrActive pci) := by
  intro line idx
  rw [BitVec.getLsbD_and, Bool.and_eq_true, intrActive_getLsbD, InterruptActive]

theorem ActiveMask.eq_zero_iff
    {irq : Option (BitVec 64)}
    {pci : SimbusPci User Handle}
    {active : BitVec 64}
    (isActive : ActiveMask irq pci active) :
    active = 0 ↔ ¬ AnyActive irq pci := by
  rw [mask_eq_zero_iff]
  constructor
  · rintro none ⟨line, idx, hit⟩
    exact none line idx ((isActive line idx).mpr hit)
  · intro none line idx bit
    exact none ⟨line, idx, (isActive line idx).mp bit⟩

theorem intrActive_eq_zero_iff (pci : SimbusPci User Handle) :
    intrActive pci = 0 ↔ ¬ AnyLine pci := by
  rw [mask_eq_zero_iff]
  constructor
  · rintro none ⟨line, idx, low⟩
    exact none line idx ((intrActive_getLsbD pci line idx).mpr low)
  · intro none line idx bit
    exact none ⟨line, idx, (intrActive_getLsbD pci line idx).mp bit⟩

theorem found_iff
    (irq : Option (BitVec 64))
    (pci : SimbusPci User Handle) :
    intrActive pci &&& irq.getD 0 ≠ 0 ↔ AnyActive irq pci := by
  rw [BitVec.and_comm, ne_eq, (intrActive_activeMask irq pci).eq_zero_iff, not_not]

/-- An enabled interrupt is an interrupt. -/
theorem AnyActive.anyLine
    {irq : Option (BitVec 64)}
    {pci : SimbusPci User Handle}
    (active : AnyActive irq pci) :
    AnyLine pci := by
  obtain ⟨line, idx, _, low⟩ := active
  exact ⟨line, idx, low⟩

/-! ## The wait -/

/-- One clock of the wait: an early result, or none. -/
def waitClock
    (stateMachine : Call User Handle Unit) : Call User Handle (Option Int) := do
  let rc ← exchangeWhileClk (fun clk => clk ≠ .zero) 0
  let rc ← exchangeWhileClk (fun clk => clk ≠ .one) rc
  if rc < 0 then
    return some rc
  else
    stateMachine
    let pci ← Program.getState
    if pci.device.breakFlag ∧ pci.targetState = .idle then
      return some simbusPciBreak
    else
      return none

/-- What the loop of the wait does after one of its clocks. -/
def waitNext
    (stateMachine : Call User Handle Unit)
    (useIrq : BitVec 64)
    (clks : Nat) : Option Int → Call User Handle (Except Int (BitVec 64))
  | some rc => return .error rc
  | none => do
      let pci ← Program.getState
      waitLoop stateMachine useIrq clks (intrActive pci)

variable {stateMachine : Call User Handle Unit}
variable {useIrq : BitVec 64}

theorem waitLoop_found
    {mask : BitVec 64}
    (found : mask &&& useIrq ≠ 0)
    (clks : Nat) :
    waitLoop stateMachine useIrq clks mask = pure (.ok mask) := by
  cases clks with
  | zero =>
      rfl
  | succ clks =>
      rw [waitLoop, if_pos found]

theorem waitLoop_clock
    {mask : BitVec 64}
    (missed : mask &&& useIrq = 0)
    (clks : Nat)
    (pci : SimbusPci User Handle) :
    (waitLoop stateMachine useIrq (clks + 1) mask).start pci =
      ((waitClock stateMachine).start pci).bind fun early =>
        (waitNext stateMachine useIrq clks early).start := by
  have goesOn : ¬ mask &&& useIrq ≠ 0 := not_not.mpr missed
  rw [waitLoop, if_neg goesOn, waitClock, Program.start_bind,
    Program.start_bind, Behavior.bind_assoc]
  congr 1
  funext rc state
  rw [Program.start_bind, Program.start_bind, Behavior.bind_assoc]
  congr 1
  funext rc state
  by_cases ends : rc < 0
  · rw [if_pos ends, if_pos ends]
    rfl
  · rw [if_neg ends, if_neg ends, Program.start_bind, Program.start_bind,
      Behavior.bind_assoc]
    congr 1
    funext value state
    rw [Program.start_bind, Program.start_bind, Program.start_getState,
      Behavior.finish_bind, Behavior.finish_bind]
    split <;> rfl

/-- The loop stops after the first clock with an enabled interrupt. -/
theorem waitLoop_returns
    {irq : Option (BitVec 64)}
    {mask : BitVec 64}
    {pci : SimbusPci User Handle}
    {replies : List (List Reply)}
    {states : List (SimbusPci User Handle)}
    (turns : Turns (waitClock stateMachine) none pci replies states)
    (some : states ≠ [])
    (missed : mask &&& irq.getD 0 = 0) :
    ∃ index final exchanges,
      StopsAt (AnyActive irq) states index final ∧
      Returns ((waitLoop stateMachine (irq.getD 0) states.length mask).start pci)
        (replies.take (index + 1)).flatten exchanges (.ok (intrActive final))
        final := by
  induction turns generalizing mask with
  | none =>
      exact (some rfl).elim
  | @turn pci next inputs exchanges others states once rest inductionHypothesis =>
      rw [List.length_cons, waitLoop_clock missed]
      by_cases found : AnyActive irq next
      · have ends : Returns
            ((waitNext stateMachine (irq.getD 0) states.length none).start next)
            [] [] (.ok (intrActive next)) next := by
          rw [waitNext, Program.start_bind, Program.start_getState,
            Behavior.finish_bind,
            waitLoop_found ((found_iff irq next).mpr found)]
          exact .finish _ next
        refine ⟨0, next, exchanges ++ [], .now found, ?_⟩
        exact once.bind ends
      · have missedNext : intrActive next &&& irq.getD 0 = 0 := by
          by_contra hit
          exact found ((found_iff irq next).mp hit)
        by_cases more : states = []
        · subst more
          have ends : Returns
              ((waitNext stateMachine (irq.getD 0) 0 none).start next)
              [] [] (.ok (intrActive next)) next := .finish _ next
          refine ⟨0, next, exchanges ++ [], .only _ next, ?_⟩
          exact once.bind ends
        · obtain ⟨index, final, exchangesLater, stops, returns⟩ :=
            inductionHypothesis more missedNext
          refine ⟨index + 1, final, exchanges ++ exchangesLater,
            stops.after found, ?_⟩
          rw [List.take_succ_cons, List.flatten_cons]
          exact once.bind returns

/-! ## The whole function -/

/-- The state from which the clocks of a wait are taken. -/
def SimbusPci.withoutBreak
    (pci : SimbusPci User Handle) : SimbusPci User Handle :=
  { pci with device := { pci.device with breakFlag := false } }

/-- The states in which a wait looks for interrupts, given those after its clocks. -/
def lookedAt
    (pci : SimbusPci User Handle)
    (states : List (SimbusPci User Handle)) : List (SimbusPci User Handle) :=
  if states = [] then [pci] else states

/-- The replies until some state in which the wait looks. -/
def repliesUntil
    (replies : List (List Reply))
    (index : Nat) : List Reply :=
  (replies.take (index + 1)).flatten

/-- The wait stops at the first state with an enabled interrupt or at the last. -/
theorem simbusPciWaitWith_returns
    {pci : SimbusPci User Handle}
    {replies : List (List Reply)}
    {states : List (SimbusPci User Handle)}
    (turns : Turns (waitClock stateMachine) none pci.withoutBreak replies states)
    (irq : Option (BitVec 64)) :
    ∃ index final exchanges,
      StopsAt (AnyActive irq) (lookedAt pci states) index final ∧
      Returns ((simbusPciWaitWith stateMachine states.length irq).start pci)
        (repliesUntil replies index) exchanges
        (waitResult (intrActive final), irq.map (· &&& intrActive final))
        final := by
  by_cases probe : states = []
  · have noReplies : replies = [] := by
      rw [← List.length_eq_zero_iff, ← turns.length, probe, List.length_nil]
    subst probe noReplies
    refine ⟨0, pci, [], .only _ pci, ?_⟩
    rw [simbusPciWaitWith, List.length_nil, if_pos rfl]
    exact .finish _ pci
  · have clocked : states.length ≠ 0 :=
      fun none => probe (List.length_eq_zero_iff.mp none)
    obtain ⟨index, final, exchanges, stops, returns⟩ :=
      waitLoop_returns turns probe BitVec.zero_and
    refine ⟨index, final, exchanges ++ [], ?_, ?_⟩
    · rw [lookedAt, if_neg probe]
      exact stops
    · rw [simbusPciWaitWith, if_neg clocked, Program.start_bind,
        Program.start_modifyState, Behavior.finish_bind, Program.start_bind,
        repliesUntil, ← List.append_nil (List.flatten _)]
      exact returns.bind (.finish _ final)

/--
The wait stops at the first state with an enabled interrupt, with a positive
result and the mask of the enabled ones that are active.  Without one it returns
0 and an empty mask after all of its clocks.
-/
def WaitsRight
    (stateMachine : Call User Handle Unit)
    (irq : Option (BitVec 64))
    (pci : SimbusPci User Handle)
    (replies : List (List Reply))
    (states : List (SimbusPci User Handle)) : Prop :=
  ∃ index final exchanges rc active,
    StopsAt (AnyActive irq) (lookedAt pci states) index final ∧
    Returns ((simbusPciWaitWith stateMachine states.length irq).start pci)
      (repliesUntil replies index) exchanges (rc, irq.map fun _ => active)
      final ∧
    ActiveMask irq final active ∧
    (0 < rc ↔ AnyActive irq final) ∧
    (¬ AnyActive irq final → rc = 0)

theorem irq_map_and
    (irq : Option (BitVec 64))
    (mask : BitVec 64) :
    irq.map (· &&& mask) = irq.map fun _ => irq.getD 0 &&& mask := by
  cases irq <;> rfl

/--
On every sequence of clocks the wait is right if and only if an enabled interrupt
is active in a state in which it looks, or none at all is active in the last one.
-/
theorem simbusPciWait_iff
    (callbacks : Callbacks User Handle)
    (stack : Nat)
    {pci : SimbusPci User Handle}
    {replies : List (List Reply)}
    {states : List (SimbusPci User Handle)}
    (turns : Turns
      (waitClock (pciTargetStateMachine callbacks
        (pciRequestBus callbacks stack)))
      none pci.withoutBreak replies states)
    (irq : Option (BitVec 64)) :
    WaitsRight
        (pciTargetStateMachine callbacks (pciRequestBus callbacks stack))
        irq pci replies states ↔
      (∃ looked ∈ lookedAt pci states, AnyActive irq looked) ∨
        ∀ last ∈ (lookedAt pci states).getLast?, ¬ AnyLine last := by
  obtain ⟨index, final, exchanges, stops, returns⟩ :=
    simbusPciWaitWith_returns turns irq
  constructor
  · rintro ⟨index', final', exchanges', rc, active, stops', returns',
      _, _, timeout⟩
    obtain ⟨rfl, rfl⟩ := stops.unique stops'
    by_cases found : AnyActive irq final'
    · exact .inl ⟨final', List.mem_of_getElem? stops.here, found⟩
    · refine .inr fun last isLast => ?_
      rw [stops.isLast found, Option.mem_some_iff] at isLast
      subst isLast
      have same := congrArg Prod.fst (returns.unique returns').1
      rw [timeout found] at same
      rw [← intrActive_eq_zero_iff]
      by_contra some
      rw [waitResult, if_neg some] at same
      cases same
  · intro condition
    refine ⟨index, final, exchanges, waitResult (intrActive final),
      irq.getD 0 &&& intrActive final, stops, ?_, intrActive_activeMask irq final,
      ?_, ?_⟩
    · rw [← irq_map_and]
      exact returns
    · constructor
      · intro positive
        by_contra missed
        rcases condition with ⟨looked, member, found⟩ | none
        · exact stops.missed missed looked member found
        · have none := none final (stops.isLast missed)
          rw [waitResult, if_pos ((intrActive_eq_zero_iff final).mpr none)]
            at positive
          exact lt_irrefl _ positive
      · intro found
        have some : intrActive final ≠ 0 :=
          fun none => (intrActive_eq_zero_iff final).mp none found.anyLine
        rw [waitResult, if_neg some]
        exact Int.one_pos
    · intro missed
      rcases condition with ⟨looked, member, found⟩ | none
      · exact (stops.missed missed looked member found).elim
      · have none := none final (stops.isLast missed)
        exact if_pos ((intrActive_eq_zero_iff final).mpr none)

end

/-! ## A host with an interrupt -/

/-- A host right after an edge. -/
def waitingHost : SimbusPci Unit Unit :=
  { SimbusPci.init 0 (fun _ => 0) () with pciClk := .one }

/-- The UNTIL of a host while number 3 drives INTB# to 0. -/
def interruptUntil (pciClk : Logic4) : SendSignals where
  pciClk := pciClk
  pcixcap := .zero
  gntN := .one
  idsel := .z
  resetN := none
  intN := some fun line idx => if line = 1 ∧ idx = 3 then .zero else .one
  bi := BiSignals.ofBits fun _ => .one

/-- A clock with it. -/
def interruptClock : List Reply :=
  [.until (interruptUntil .zero), .until (interruptUntil .one)]

/-- The host after the clock. -/
def interruptedHost : SimbusPci Unit Unit :=
  (waitingHost.withoutBreak.sample (interruptUntil .zero)).sample
    (interruptUntil .one)

theorem interruptedHost_turns :
    Turns
      (waitClock (pciTargetStateMachine noCallbacks
        (pciRequestBus noCallbacks 1)))
      none waitingHost.withoutBreak [interruptClock] [interruptedHost] := by
  obtain ⟨exchanges, once⟩ := returns_of_run
    (show ((waitClock (pciTargetStateMachine noCallbacks
        (pciRequestBus noCallbacks 1))).start waitingHost.withoutBreak).run
          interruptClock =
      .finished none interruptedHost [] from rfl)
  exact .turn once .none

/-- The wait for this interrupt. -/
theorem interruptedHost_enabled :
    WaitsRight (pciTargetStateMachine noCallbacks (pciRequestBus noCallbacks 1))
        (some 0x80000) waitingHost [interruptClock] [interruptedHost] ↔
      (∃ looked ∈ lookedAt waitingHost [interruptedHost],
        AnyActive (some 0x80000) looked) ∨
        ∀ last ∈ (lookedAt waitingHost [interruptedHost]).getLast?,
          ¬ AnyLine last :=
  simbusPciWait_iff noCallbacks 1 interruptedHost_turns (some 0x80000)

/-- A wait for another one times out with the result 1 and an empty mask. -/
theorem interruptedHost_disabled :
    ((simbusPciWait noCallbacks 1 1 (some 1)).start waitingHost).run
        interruptClock = .finished (1, some 0) interruptedHost [] ∧
      ¬ AnyActive (some 1) interruptedHost ∧
      ¬ WaitsRight
        (pciTargetStateMachine noCallbacks (pciRequestBus noCallbacks 1))
        (some 1) waitingHost [interruptClock] [interruptedHost] := by
  have inactive : ¬ AnyActive (some 1) interruptedHost := by
    rintro ⟨line, idx, enabled, low⟩
    revert line idx
    decide
  have ran : ((simbusPciWait noCallbacks 1 1 (some 1)).start waitingHost).run
      interruptClock = .finished (1, some 0) interruptedHost [] := rfl
  refine ⟨ran, inactive, ?_⟩
  rintro ⟨index, final, exchanges, rc, active, stops, returns, _, _, timeout⟩
  obtain ⟨rfl, rfl⟩ := (StopsAt.only _ interruptedHost).unique stops
  obtain ⟨_, once⟩ := returns_of_run ran
  have same := congrArg Prod.fst (returns.unique once).1
  rw [timeout inactive] at same
  cases same

end Simbus.Pci
