import Simbus.Clocked.Returns
import Simbus.Pcie.Beats
import Simbus.Pcie.Edges

/-!
# Waiting for interrupts on PCIe

`simbus_pcie_tlp_wait` looks for enabled interrupts after each of its clocks and
returns the number of clocks that are left.  A clock of the wait is one call of
`__pcie_tlp_next_posedge`, which also serves the packet that ends with it.
-/

namespace Simbus.Pcie

open FourValued Clocked

section

variable {User : Type}

/-! ## The function -/

/-- The loop of `simbus_pcie_tlp_wait`: the clocks left and the mask to return. -/
def waitLoop
    (send : Tlp → Call User Unit)
    (enableMask : BitVec 32) : Nat → Call User (Nat × BitVec 32)
  | 0 => return (0, 0)
  | clks + 1 => do
      pcieTlpNextPosedge send
      let bus ← Program.getState
      let returnMask := enableMask &&& bus.intxMask
      if returnMask = 0 then
        waitLoop send enableMask clks
      else
        return (clks, returnMask)

/--
`simbus_pcie_tlp_wait`: the result, which is converted to an `int`, and the new
value of `*irq_mask`.
-/
def simbusPcieTlpWait
    (stack : Nat)
    (clks : BitVec 32)
    (irqMask : Option (BitVec 32)) :
    Call User (Int × Option (BitVec 32)) := do
  let enableMask := irqMask.getD 0
  if clks = 0 then
    let bus ← Program.getState
    return (0, irqMask.map fun _ => enableMask &&& bus.intxMask)
  else
    let (clks, returnMask) ←
      waitLoop (pcieTlpSendTlp stack) enableMask clks.toNat
    return ((BitVec.ofNat 32 clks).toInt, irqMask.map fun _ => returnMask)

/-! ## What is asserted -/

/-- An interrupt that is enabled in the mask and asserted. -/
def InterruptAsserted
    (irqMask : Option (BitVec 32))
    (bus : SimbusPcieTlp User)
    (intx : Nat) : Prop :=
  (irqMask.getD 0).getLsbD intx = true ∧ bus.intxMask.getLsbD intx = true

/-- A mask has the bits of exactly the enabled interrupts that are asserted. -/
def AssertedMask
    (irqMask : Option (BitVec 32))
    (bus : SimbusPcieTlp User)
    (asserted : BitVec 32) : Prop :=
  ∀ intx, asserted.getLsbD intx = true ↔ InterruptAsserted irqMask bus intx

/-- Some enabled interrupt is asserted. -/
def AnyAsserted
    (irqMask : Option (BitVec 32))
    (bus : SimbusPcieTlp User) : Prop :=
  ∃ intx, InterruptAsserted irqMask bus intx

theorem enabled_assertedMask
    (irqMask : Option (BitVec 32))
    (bus : SimbusPcieTlp User) :
    AssertedMask irqMask bus (irqMask.getD 0 &&& bus.intxMask) := by
  intro intx
  rw [BitVec.getLsbD_and, Bool.and_eq_true, InterruptAsserted]

theorem enabled_eq_zero_iff
    (irqMask : Option (BitVec 32))
    (bus : SimbusPcieTlp User) :
    irqMask.getD 0 &&& bus.intxMask = 0 ↔ ¬ AnyAsserted irqMask bus := by
  have isAsserted := enabled_assertedMask irqMask bus
  constructor
  · rintro none ⟨intx, asserted⟩
    have bit := (isAsserted intx).mpr asserted
    rw [none] at bit
    simp at bit
  · intro none
    apply BitVec.eq_of_getLsbD_eq
    intro intx _
    have released : ¬ (irqMask.getD 0 &&& bus.intxMask).getLsbD intx = true :=
      fun bit => none ⟨intx, (isAsserted intx).mp bit⟩
    simpa using released

/-! ## The wait -/

/-- The loop stops after the first clock with an enabled interrupt. -/
theorem waitLoop_returns
    {send : Tlp → Call User Unit}
    {irqMask : Option (BitVec 32)}
    {bus : SimbusPcieTlp User}
    {replies : List (List Reply)}
    {states : List (SimbusPcieTlp User)}
    (turns : Turns (pcieTlpNextPosedge send) () bus replies states)
    (some : states ≠ []) :
    ∃ index final exchanges,
      StopsAt (AnyAsserted irqMask) states index final ∧
      Returns ((waitLoop send (irqMask.getD 0) states.length).start bus)
        (replies.take (index + 1)).flatten exchanges
        (states.length - (index + 1), irqMask.getD 0 &&& final.intxMask)
        final := by
  induction turns with
  | none =>
      exact (some rfl).elim
  | @turn bus next inputs exchanges others states once rest
      inductionHypothesis =>
      rw [List.length_cons, waitLoop, Program.start_bind]
      by_cases found : AnyAsserted irqMask next
      · have hit : irqMask.getD 0 &&& next.intxMask ≠ 0 :=
          fun none => (enabled_eq_zero_iff irqMask next).mp none found
        refine ⟨0, next, exchanges ++ [], .now found, once.bind ?_⟩
        rw [Program.start_bind, Program.start_getState, Behavior.finish_bind,
          if_neg hit]
        exact .finish _ next
      · have missed := (enabled_eq_zero_iff irqMask next).mpr found
        by_cases more : states = []
        · subst more
          refine ⟨0, next, exchanges ++ [], .only _ next, once.bind ?_⟩
          rw [Program.start_bind, Program.start_getState, Behavior.finish_bind,
            if_pos missed, missed]
          exact .finish _ next
        · obtain ⟨index, final, exchangesLater, stops, returns⟩ :=
            inductionHypothesis more
          refine ⟨index + 1, final, exchanges ++ exchangesLater,
            stops.after found, ?_⟩
          rw [List.take_succ_cons, List.flatten_cons,
            Nat.add_sub_add_right states.length 1 (index + 1)]
          refine once.bind ?_
          rw [Program.start_bind, Program.start_getState, Behavior.finish_bind,
            if_pos missed]
          exact returns

/--
If an enabled interrupt is asserted at entry or after one of the clocks, the wait
returns after some of them, while one is asserted, with a positive result.
Otherwise it returns 0 after all of them.  The mask has the enabled interrupts
that are asserted then.
-/
def WaitsRight
    (stack : Nat)
    (clks : BitVec 32)
    (irqMask : Option (BitVec 32))
    (bus : SimbusPcieTlp User)
    (replies : List (List Reply))
    (states : List (SimbusPcieTlp User)) : Prop :=
  ∃ count final exchanges rc asserted,
    (bus :: states)[count]? = some final ∧
    Returns ((simbusPcieTlpWait stack clks irqMask).start bus)
      (replies.take count).flatten exchanges
      (rc, irqMask.map fun _ => asserted) final ∧
    AssertedMask irqMask final asserted ∧
    ((∃ looked ∈ bus :: states, AnyAsserted irqMask looked) →
      AnyAsserted irqMask final ∧ 0 < rc) ∧
    ((∀ looked ∈ bus :: states, ¬ AnyAsserted irqMask looked) →
      count = clks.toNat ∧ rc = 0)

/-- An enabled interrupt is asserted first when this many clocks are left. -/
def FirstWithLeft
    (irqMask : Option (BitVec 32))
    (states : List (SimbusPcieTlp User))
    (left : Nat) : Prop :=
  ∃ index first, StopsAt (AnyAsserted irqMask) states index first ∧
    AnyAsserted irqMask first ∧ index + 1 + left = states.length

theorem remaining_pos_iff
    {left : Nat}
    (bounded : left < 2 ^ 32) :
    0 < (BitVec.ofNat 32 left).toInt ↔ 0 < left ∧ left < 2 ^ 31 := by
  rw [BitVec.toInt_eq_toNat_cond, BitVec.toNat_ofNat, Nat.mod_eq_of_lt bounded]
  split <;> omega

/-- The result of a wait that has clocks. -/
theorem simbusPcieTlpWait_returns
    {stack : Nat}
    {clks : BitVec 32}
    {bus : SimbusPcieTlp User}
    {replies : List (List Reply)}
    {states : List (SimbusPcieTlp User)}
    (turns : Turns (pcieTlpNextPosedge (pcieTlpSendTlp stack)) () bus replies
      states)
    (length : states.length = clks.toNat)
    (some : states ≠ [])
    (irqMask : Option (BitVec 32)) :
    ∃ index final exchanges,
      StopsAt (AnyAsserted irqMask) states index final ∧
      Returns ((simbusPcieTlpWait stack clks irqMask).start bus)
        (replies.take (index + 1)).flatten exchanges
        ((BitVec.ofNat 32 (states.length - (index + 1))).toInt,
          irqMask.map fun _ => irqMask.getD 0 &&& final.intxMask)
        final := by
  have clocked : clks ≠ 0 := by
    rintro rfl
    exact some (List.length_eq_zero_iff.mp length)
  obtain ⟨index, final, exchanges, stops, returns⟩ :=
    waitLoop_returns turns some
  refine ⟨index, final, exchanges ++ [], stops, ?_⟩
  rw [simbusPcieTlpWait, if_neg clocked, Program.start_bind, ← length,
    ← List.append_nil (List.flatten _)]
  exact returns.bind (.finish _ final)

/-- A wait without clocks returns 0 at once. -/
theorem simbusPcieTlpWait_probe
    (stack : Nat)
    (irqMask : Option (BitVec 32))
    (bus : SimbusPcieTlp User) :
    Returns ((simbusPcieTlpWait stack 0 irqMask).start bus) [] []
      (0, irqMask.map fun _ => irqMask.getD 0 &&& bus.intxMask) bus := by
  rw [simbusPcieTlpWait, if_pos rfl]
  exact .finish _ bus

/--
On every sequence of clocks the wait is right if and only if an enabled interrupt
is first asserted when between 1 and 2 ^ 31 - 1 clocks are left, or none is
asserted at entry or later.
-/
theorem simbusPcieTlpWait_iff
    {stack : Nat}
    {clks : BitVec 32}
    {bus : SimbusPcieTlp User}
    {replies : List (List Reply)}
    {states : List (SimbusPcieTlp User)}
    (turns : Turns (pcieTlpNextPosedge (pcieTlpSendTlp stack)) () bus replies
      states)
    (length : states.length = clks.toNat)
    (irqMask : Option (BitVec 32)) :
    WaitsRight stack clks irqMask bus replies states ↔
      (∃ left, FirstWithLeft irqMask states left ∧
        0 < left ∧ left < 2 ^ 31) ∨
        ∀ looked ∈ bus :: states, ¬ AnyAsserted irqMask looked := by
  have bounded : states.length < 2 ^ 32 := length ▸ clks.isLt
  by_cases probe : states = []
  · subst probe
    have noClocks : clks = 0 := BitVec.eq_of_toNat_eq length.symm
    subst noClocks
    have returns := simbusPcieTlpWait_probe stack irqMask bus
    constructor
    · rintro ⟨count, final, exchanges, rc, asserted, _, returns', _, found, _⟩
      refine .inr fun looked member hit => ?_
      have same := (returns.of_comparable returns' (.inl List.nil_prefix)).1
      have positive := (found ⟨looked, member, hit⟩).2
      rw [(Prod.mk.inj same).1] at positive
      exact lt_irrefl _ positive
    · rintro (⟨left, ⟨index, first, stops, _⟩, _⟩ | none)
      · cases stops.here
      · refine ⟨0, bus, [], 0, _, rfl, returns, enabled_assertedMask irqMask bus,
          ?_, fun _ => ⟨rfl, rfl⟩⟩
        rintro ⟨looked, member, hit⟩
        exact (none looked member hit).elim
  · obtain ⟨index, final, exchanges, stops, returns⟩ :=
      simbusPcieTlpWait_returns turns length probe irqMask
    have inside : index < states.length :=
      (List.getElem?_eq_some_iff.mp stops.here).1
    have leftBounded : states.length - (index + 1) < 2 ^ 32 := by omega
    constructor
    · rintro ⟨count, final', exchanges', rc, asserted, _, returns', _, found,
        _⟩
      by_cases some : ∃ looked ∈ bus :: states, AnyAsserted irqMask looked
      · obtain ⟨sameResult, rfl⟩ := returns.of_comparable returns'
          (take_flatten_comparable replies _ _)
        obtain ⟨hit, positive⟩ := found some
        rw [(Prod.mk.inj sameResult).1, remaining_pos_iff leftBounded]
          at positive
        refine .inl ⟨_, ⟨index, final', stops, hit, ?_⟩, positive⟩
        omega
      · refine .inr fun looked member hit => ?_
        exact some ⟨looked, member, hit⟩
    · rintro (⟨left, ⟨index', first, stops', hit, total⟩, some, small⟩ | none)
      · obtain ⟨rfl, rfl⟩ := stops.unique stops'
        have isLeft : states.length - (index' + 1) = left := by omega
        refine ⟨index' + 1, first, exchanges, _, _, ?_, returns,
          enabled_assertedMask irqMask first, fun _ => ⟨hit, ?_⟩, fun none => ?_⟩
        · rw [List.getElem?_cons_succ]
          exact stops.here
        · rw [remaining_pos_iff leftBounded, isLeft]
          exact ⟨some, small⟩
        · have member := List.mem_of_getElem? stops.here
          exact (none first (List.mem_cons_of_mem _ member) hit).elim
      · have member := List.mem_of_getElem? stops.here
        have missed := none final (List.mem_cons_of_mem _ member)
        have isLast := stops.last missed
        refine ⟨index + 1, final, exchanges, _, _, ?_, returns,
          enabled_assertedMask irqMask final, ?_, fun _ => ⟨?_, ?_⟩⟩
        · rw [List.getElem?_cons_succ]
          exact stops.here
        · rintro ⟨looked, member, hit⟩
          exact (none looked member hit).elim
        · rw [isLast, length]
        · rw [isLast, Nat.sub_self]
          rfl

end

/-! ## A message in the last clock -/

/-- The UNTIL of an endpoint that sends a transfer. -/
def messageUntil
    (userClk : Logic4)
    (beat : Beat) : UntilSignals where
  userClk := userClk
  rxTready := .zero
  txBeat := beat
  txTvalid := .one
  txTuser := fun _ => .zero

/-- A clock with it. -/
def messageClock (beat : Beat) : List Reply :=
  [.until (messageUntil .zero beat), .until (messageUntil .one beat)]

/-- The two transfers of Assert_INTA. -/
def assertFirst : Beat := beatOf [0x30000000, 0x20, 0, 0]

def assertSecond : Beat := beatOf [0, 0]

/-- A client that has nothing to do. -/
def waitingRoot : SimbusPcieTlp Unit :=
  .init () none none

/-- The client after the first transfer. -/
def receivingRoot : SimbusPcieTlp Unit :=
  { waitingRoot.sample (messageUntil .one assertFirst) with
    sTlpBuf := Function.update
      (Function.update waitingRoot.sTlpBuf 0 0x30000000) 1 0x20
    sTlpCnt := 2 }

/-- The client after the message. -/
def interruptedRoot : SimbusPcieTlp Unit :=
  { receivingRoot.sample (messageUntil .one assertSecond) with
    intxMask := 1
    sTlpBuf := Function.update (Function.update receivingRoot.sTlpBuf 2 0) 3 0
    sTlpCnt := 0 }

/-- A whole clock, with the packet that is served after it. -/
theorem pcieTlpNextPosedge_returns
    {User : Type}
    {send : Tlp → Call User Unit}
    {bus next : SimbusPcieTlp User}
    {beat : Beat}
    (isHigh : bus.userClk = .one)
    (received : (pcieTlpRecvTlp send).start
      (recordTransfer (bus.sample (messageUntil .one beat))) =
        .finish () next) :
    ∃ exchanges, Returns ((pcieTlpNextPosedge send).start bus)
      (messageClock beat) exchanges () next := by
  have exchange (bus : SimbusPcieTlp User) (signals : UntilSignals) :
      Returns ((clockTurn : Call User Unit).start bus) [.until signals]
        [(bus, .until signals)] () (bus.sample signals) := by
    rw [start_clockTurn]
    exact .await (.finish () _)
  have lowLoop : Returns
      ((Program.whileDo (fun bus => bus.userClk = .one) clockTurn).start bus)
      [.until (messageUntil .zero beat)] [(bus, .until (messageUntil .zero beat))]
      () (bus.sample (messageUntil .zero beat)) :=
    .whileTurn (by simpa using isHigh) (exchange bus _) nofun (.whileDone rfl)
  have highLoop : Returns
      ((Program.whileDo (fun bus => bus.userClk = .zero) clockTurn).start
        (bus.sample (messageUntil .zero beat)))
      [.until (messageUntil .one beat)]
      [(bus.sample (messageUntil .zero beat), .until (messageUntil .one beat))]
      () (bus.sample (messageUntil .one beat)) :=
    .whileTurn rfl (exchange _ _) nofun (.whileDone rfl)
  have served : Returns ((pcieTlpRecvTlp send).start
      (recordTransfer (bus.sample (messageUntil .one beat)))) [] [] () next := by
    rw [received]
    exact .finish () next
  have edge : Returns (waitPosedge.start bus) (messageClock beat) _ ()
      (recordTransfer (bus.sample (messageUntil .one beat))) :=
    lowLoop.bind (highLoop.bind (.finish () _))
  exact ⟨_, edge.bind served⟩

theorem assertFirst_received :
    (pcieTlpRecvTlp (pcieTlpSendTlp 1)).start
      (recordTransfer (waitingRoot.sample (messageUntil .one assertFirst))) =
        .finish () receivingRoot := by
  rw [pcieTlpRecvTlp, Program.start_bind, Program.start_getState,
    Behavior.finish_bind]
  have isBeat : (recordTransfer
      (waitingRoot.sample (messageUntil .one assertFirst))).txBeat =
        beatOf [0x30000000, 0x20, 0, 0] := rfl
  rw [isBeat, assemble_beatOf]
  rfl

theorem assertSecond_received :
    (pcieTlpRecvTlp (pcieTlpSendTlp 1)).start
      (recordTransfer (receivingRoot.sample (messageUntil .one assertSecond))) =
        .finish () interruptedRoot := by
  rw [pcieTlpRecvTlp, Program.start_bind, Program.start_getState,
    Behavior.finish_bind]
  have isBeat : (recordTransfer
      (receivingRoot.sample (messageUntil .one assertSecond))).txBeat =
        beatOf [0, 0] := rfl
  rw [isBeat, assemble_beatOf]
  rfl

theorem assertClocks_turns :
    Turns (pcieTlpNextPosedge (pcieTlpSendTlp 1)) () waitingRoot
      [messageClock assertFirst, messageClock assertSecond]
      [receivingRoot, interruptedRoot] := by
  obtain ⟨_, first⟩ := pcieTlpNextPosedge_returns rfl assertFirst_received
  obtain ⟨_, second⟩ := pcieTlpNextPosedge_returns rfl assertSecond_received
  exact .turn first (.turn second .none)

/-- The wait for another interrupt times out. -/
theorem simbusPcieTlpWait_timeout :
    WaitsRight 1 2 (some 2) waitingRoot
        [messageClock assertFirst, messageClock assertSecond]
        [receivingRoot, interruptedRoot] ↔
      (∃ left, FirstWithLeft (some 2) [receivingRoot, interruptedRoot] left ∧
        0 < left ∧ left < 2 ^ 31) ∨
        ∀ looked ∈ [waitingRoot, receivingRoot, interruptedRoot],
          ¬ AnyAsserted (some 2) looked :=
  simbusPcieTlpWait_iff assertClocks_turns rfl (some 2)

/-- The message in the last of two clocks makes the result 0. -/
theorem simbusPcieTlpWait_lastClock :
    (∃ exchanges, Returns ((simbusPcieTlpWait 1 2 (some 1)).start waitingRoot)
      (messageClock assertFirst ++ messageClock assertSecond) exchanges
      (0, some 1) interruptedRoot) ∧
      AnyAsserted (some 1) interruptedRoot ∧
      ¬ WaitsRight 1 2 (some 1) waitingRoot
        [messageClock assertFirst, messageClock assertSecond]
        [receivingRoot, interruptedRoot] := by
  have asserted : AnyAsserted (some 1) interruptedRoot := ⟨0, rfl, rfl⟩
  have missed : ¬ AnyAsserted (some 1) receivingRoot := by
    rintro ⟨intx, _, bit⟩
    simp [receivingRoot, waitingRoot, SimbusPcieTlp.sample, SimbusPcieTlp.init]
      at bit
  have stops : StopsAt (AnyAsserted (some 1)) [receivingRoot, interruptedRoot] 1
      interruptedRoot := (StopsAt.now asserted).after missed
  obtain ⟨index, final, exchanges, stops', returns⟩ :=
    simbusPcieTlpWait_returns assertClocks_turns (rfl : _ = (2 : BitVec 32).toNat)
      nofun (some 1)
  obtain ⟨rfl, rfl⟩ := stops.unique stops'
  refine ⟨⟨exchanges, returns⟩, asserted, ?_⟩
  rintro ⟨count, final', exchanges', rc, mask, _, returns', _, found, _⟩
  have same := (returns.of_comparable returns'
    (take_flatten_comparable _ _ _)).1
  have positive := (found ⟨_, by simp, asserted⟩).2
  rw [(Prod.mk.inj same).1] at positive
  exact lt_irrefl _ positive

end Simbus.Pcie
