import Simbus.Axi4.Master
import Simbus.Clocked.Returns

/-!
# Waiting for interrupts on AXI4

`simbus_axi4_wait` looks for enabled interrupts at once and after each of its
clocks.  The bits of the mask for lines that are not wired are never cleared, so
they count as interrupts.
-/

namespace Simbus.Axi4

open FourValued Clocked

section

variable {User : Type}

/-! ## What is active -/

/-- An interrupt that is enabled in the mask, is wired and is at 1. -/
def InterruptActive
    (irqMask : Option (BitVec 32))
    (bus : SimbusAxi4 User)
    (idx : Nat) : Prop :=
  (irqMask.getD 0).getLsbD idx = true ∧ idx < bus.widths.irqWidth ∧
    bus.irq idx = .one

/-- A mask has the bits of exactly the active interrupts. -/
def ActiveMask
    (irqMask : Option (BitVec 32))
    (bus : SimbusAxi4 User)
    (active : BitVec 32) : Prop :=
  ∀ idx, active.getLsbD idx = true ↔ InterruptActive irqMask bus idx

/-- Some interrupt is active. -/
def AnyActive
    (irqMask : Option (BitVec 32))
    (bus : SimbusAxi4 User) : Prop :=
  ∃ idx, InterruptActive irqMask bus idx

/-- The mask enables wired interrupts only. -/
def MaskWired
    (irqMask : Option (BitVec 32))
    (width : Nat) : Prop :=
  ∀ idx, width ≤ idx → (irqMask.getD 0).getLsbD idx = false

/-- The loop clears the bits of the first lines that are not at 1. -/
theorem foldl_clear_getLsbD
    (irq : Nat → Logic4)
    (mask : BitVec 32)
    (width idx : Nat) :
    ((List.range width).foldl
      (fun rc idx =>
        if irq idx = .one then rc else rc &&& ~~~ ((1 : BitVec 32) <<< idx))
      mask).getLsbD idx =
      (mask.getLsbD idx && (decide (width ≤ idx) || decide (irq idx = .one))) := by
  induction width with
  | zero =>
      simp
  | succ width inductionHypothesis =>
      rw [List.range_succ, List.foldl_append, List.foldl_cons, List.foldl_nil]
      by_cases isOne : irq width = .one
      · rw [if_pos isOne, inductionHypothesis]
        rcases Nat.lt_trichotomy idx width with below | rfl | above
        · simp [Nat.not_le.mpr below, Nat.not_le.mpr (Nat.lt_succ_of_lt below)]
        · simp [isOne]
        · simp [Nat.le_of_lt above, Nat.succ_le_of_lt above]
      · rw [if_neg isOne, BitVec.getLsbD_and, inductionHypothesis]
        have cleared : (~~~ ((1 : BitVec 32) <<< width)).getLsbD idx =
            (decide (idx < 32) && decide (idx ≠ width)) := by
          have isOne : (1 : BitVec 32).getLsbD (idx - width) =
              decide (idx - width = 0) := by
            simp [BitVec.getLsbD_one]
          rw [BitVec.getLsbD_not, BitVec.getLsbD_shiftLeft, isOne]
          by_cases bounded : idx < 32
          · rcases Nat.lt_trichotomy idx width with below | rfl | above
            · simp [bounded, below, Nat.ne_of_lt below]
            · simp [bounded]
            · have apart : ¬ idx - width = 0 := by omega
              simp [bounded, Nat.not_lt.mpr (Nat.le_of_lt above), apart,
                Nat.ne_of_gt above]
          · simp [bounded]
        rw [cleared]
        by_cases bounded : idx < 32
        · rcases Nat.lt_trichotomy idx width with below | rfl | above
          · simp [bounded, Nat.not_le.mpr below,
              Nat.not_le.mpr (Nat.lt_succ_of_lt below), Nat.ne_of_lt below]
          · simp [isOne]
          · simp [bounded, Nat.le_of_lt above, Nat.succ_le_of_lt above,
              Nat.ne_of_gt above]
        · rw [BitVec.getLsbD_of_ge mask idx (Nat.not_lt.mp bounded)]
          simp

/-- The test leaves the active interrupts and the bits beyond the wired lines. -/
theorem testInterrupts_getLsbD
    (irqMask : Option (BitVec 32))
    (bus : SimbusAxi4 User)
    (idx : Nat) :
    (testInterrupts irqMask bus).getLsbD idx = true ↔
      InterruptActive irqMask bus idx ∨
        (irqMask.getD 0).getLsbD idx = true ∧ bus.widths.irqWidth ≤ idx := by
  cases irqMask with
  | none =>
      simp [testInterrupts, InterruptActive]
  | some mask =>
      rw [testInterrupts, foldl_clear_getLsbD, InterruptActive]
      simp only [Option.getD_some, Bool.and_eq_true, Bool.or_eq_true,
        decide_eq_true_eq]
      constructor
      · rintro ⟨enabled, beyond | isOne⟩
        · exact .inr ⟨enabled, beyond⟩
        · by_cases wired : idx < bus.widths.irqWidth
          · exact .inl ⟨enabled, wired, isOne⟩
          · exact .inr ⟨enabled, Nat.not_lt.mp wired⟩
      · rintro (⟨enabled, _, isOne⟩ | ⟨enabled, beyond⟩)
        · exact ⟨enabled, .inr isOne⟩
        · exact ⟨enabled, .inl beyond⟩

/-- With a mask of wired interrupts the test finds the active ones. -/
theorem testInterrupts_active
    {irqMask : Option (BitVec 32)}
    {bus : SimbusAxi4 User}
    (wired : MaskWired irqMask bus.widths.irqWidth) :
    ActiveMask irqMask bus (testInterrupts irqMask bus) := by
  intro idx
  rw [testInterrupts_getLsbD]
  constructor
  · rintro (active | ⟨enabled, beyond⟩)
    · exact active
    · rw [wired idx beyond] at enabled
      cases enabled
  · exact .inl

theorem ActiveMask.eq_zero_iff
    {irqMask : Option (BitVec 32)}
    {bus : SimbusAxi4 User}
    {active : BitVec 32}
    (isActive : ActiveMask irqMask bus active) :
    active = 0 ↔ ¬ AnyActive irqMask bus := by
  constructor
  · rintro rfl ⟨idx, isOne⟩
    have bit := (isActive idx).mpr isOne
    simp at bit
  · intro none
    apply BitVec.eq_of_getLsbD_eq
    intro idx _
    have inactive : ¬ active.getLsbD idx = true :=
      fun bit => none ⟨idx, (isActive idx).mp bit⟩
    simpa using inactive

/-! ## The clock -/

theorem sampleMaster_widths
    (bus : SimbusAxi4 User)
    (aclk : Logic4)
    (text : SlaveSignal → Text) :
    (bus.sampleMaster aclk text).widths = bus.widths := by
  simp only [SimbusAxi4.sampleMaster, SimbusAxi4.sampleBid]
  split
  · rfl
  · split <;> rfl

/-- The widths of a client do not change. -/
theorem axi4NextPosedge_widths (widths : Widths) :
    Keeps (anyReplies (SimbusAxi4 User) MasterReply)
      (fun _ bus => bus.widths = widths)
      (axi4NextPosedge : MasterCall User Unit) := by
  have exchange : Keeps (anyReplies (SimbusAxi4 User) MasterReply)
      (fun _ bus => bus.widths = widths)
      (axi4ReadyCommand : MasterCall User Int) := by
    intro _ bus same
    refine meets_await.mpr ⟨trivial, fun reply later _ => ?_⟩
    cases reply with
    | finish =>
        exact meets_finish.mpr same
    | «until» aclk text =>
        have taken : Keeps (anyReplies (SimbusAxi4 User) MasterReply)
            (fun _ bus => bus.widths = widths)
            (do
              Program.assert fun bus => decide
                (SimbusAxi4.HasLengths (SimbusAxi4.slaveLength bus.widths) text)
              Program.modifyState fun bus => bus.sampleMaster aclk text
              return 0 : MasterCall User Int) := by
          refine .bind (Triple.assert fun _ _ before _ => before) fun _ => ?_
          refine .bind (Triple.modifyState fun _ state before => ?_)
            fun _ => .pure _
          rw [sampleMaster_widths]
          exact before
        exact taken () bus same
  have level (value : Logic4) :
      Keeps (anyReplies (SimbusAxi4 User) MasterReply)
        (fun _ bus => bus.widths = widths)
        (awaitLevel value : MasterCall User Unit) :=
    .whileDo (.bind exchange fun _ => .pure _)
  exact .bind (level .zero) fun _ => level .one

/-- A clock takes at least one message. -/
theorem axi4NextPosedge_exchanges
    {bus final : SimbusAxi4 User}
    {inputs : List MasterReply}
    {exchanges : List (SimbusAxi4 User × MasterReply)}
    (returns : Returns (axi4NextPosedge.start bus) inputs exchanges () final) :
    inputs ≠ [] := by
  have waits (level : Logic4) (bus : SimbusAxi4 User) (away : bus.aclk ≠ level) :
      ((awaitLevel level).start bus).run [] = .waiting bus := by
    exact whileDo_waits (by simpa using away) rfl
  rintro rfl
  have ran := returns.run
  rw [axi4NextPosedge, Program.start_bind] at ran
  by_cases low : bus.aclk = .zero
  · have passed : (awaitLevel .zero).start bus = .finish () bus :=
      Program.start_whileDo_false (by simpa using low)
    have high : bus.aclk ≠ .one := by
      rw [low]
      nofun
    rw [passed, Behavior.finish_bind, waits .one bus high] at ran
    cases ran
  · simp only [Behavior.bind, waits .zero bus low] at ran
    cases ran

/-! ## The wait -/

/-- What the test finds. -/
def Found
    (irqMask : Option (BitVec 32))
    (bus : SimbusAxi4 User) : Prop :=
  testInterrupts irqMask bus ≠ 0

/-- The result of a wait, and the mask that it leaves. -/
def waitResult
    (irqMask : Option (BitVec 32))
    (bus : SimbusAxi4 User) : Int × Option (BitVec 32) :=
  (if testInterrupts irqMask bus ≠ 0 then 1 else 0,
    irqMask.map fun _ => testInterrupts irqMask bus)

/-- Only with a mask something is found. -/
theorem waitResult_found
    {irqMask : Option (BitVec 32)}
    {bus : SimbusAxi4 User}
    (found : Found irqMask bus) :
    waitResult irqMask bus = (1, some (testInterrupts irqMask bus)) := by
  cases irqMask with
  | none =>
      exact (found rfl).elim
  | some mask =>
      have tests : testInterrupts (some mask) bus ≠ 0 := found
      rw [waitResult, if_pos tests]
      rfl

theorem waitResult_missed
    {irqMask : Option (BitVec 32)}
    {bus : SimbusAxi4 User}
    (missed : ¬ Found irqMask bus) :
    waitResult irqMask bus = (0, irqMask.map fun _ => 0) := by
  have tests : testInterrupts irqMask bus = 0 := not_not.mp missed
  rw [waitResult, tests]
  rfl

/-- The loop of the wait, where nothing has been found so far. -/
theorem waitLoop_returns
    {irqMask : Option (BitVec 32)}
    {bus : SimbusAxi4 User}
    {replies : List (List MasterReply)}
    {states : List (SimbusAxi4 User)}
    (turns : Turns axi4NextPosedge () bus replies states)
    (missed : ¬ Found irqMask bus) :
    ∃ count final exchanges,
      StopsAt (Found irqMask) (bus :: states) count final ∧
      Returns ((Program.loop (waitTurn irqMask) states.length).start bus)
        (replies.take count).flatten exchanges (waitResult irqMask final)
        final := by
  induction turns with
  | @none bus =>
      have ends : Returns ((waitTurn irqMask 0).start bus) [] []
          (.inr (waitResult irqMask bus)) bus := by
        rw [waitResult_missed missed]
        exact .finish _ bus
      exact ⟨0, bus, [], .only _ bus, ends.loopDone⟩
  | @turn bus next inputs exchanges others states once rest
      inductionHypothesis =>
      have exchanged := axi4NextPosedge_exchanges once
      by_cases found : Found irqMask next
      · have turn : Returns ((waitTurn irqMask (states.length + 1)).start bus)
            (inputs ++ []) (exchanges ++ [])
            (.inr (waitResult irqMask next)) next := by
          refine once.bind ?_
          rw [waitResult_found found]
          have tests : testInterrupts irqMask next ≠ 0 := found
          simp only [Program.start_bind, Program.start_getState,
            Behavior.finish_bind, tests, ne_eq, not_false_eq_true, if_true]
          exact .finish _ next
        rw [List.append_nil, List.append_nil] at turn
        refine ⟨1, next, exchanges, (StopsAt.now found).after missed, ?_⟩
        rw [List.take_succ_cons, List.take_zero, List.flatten_cons,
          List.flatten_nil, List.append_nil]
        exact turn.loopDone
      · obtain ⟨count, final, exchangesLater, stops, returns⟩ :=
          inductionHypothesis found
        have turn : Returns ((waitTurn irqMask (states.length + 1)).start bus)
            (inputs ++ []) (exchanges ++ []) (.inl states.length) next := by
          refine once.bind ?_
          have tests : testInterrupts irqMask next = 0 := not_not.mp found
          simp only [Program.start_bind, Program.start_getState,
            Behavior.finish_bind, tests, ne_eq, not_true_eq_false, if_false]
          exact .finish _ next
        rw [List.append_nil, List.append_nil] at turn
        refine ⟨count + 1, final, exchanges ++ exchangesLater,
          stops.after missed, ?_⟩
        rw [List.take_succ_cons, List.flatten_cons]
        exact turn.loopTurn exchanged returns

/-- The wait stops where its test finds something first. -/
theorem simbusAxi4Wait_returns
    {bus : SimbusAxi4 User}
    {replies : List (List MasterReply)}
    {states : List (SimbusAxi4 User)}
    (turns : Turns axi4NextPosedge () bus replies states)
    (irqMask : Option (BitVec 32)) :
    ∃ count final exchanges,
      StopsAt (Found irqMask) (bus :: states) count final ∧
      Returns ((simbusAxi4Wait states.length irqMask).start bus)
        (replies.take count).flatten exchanges (waitResult irqMask final)
        final := by
  by_cases found : Found irqMask bus
  · have tests : testInterrupts irqMask bus ≠ 0 := found
    refine ⟨0, bus, [], .now found, ?_⟩
    rw [waitResult_found found, simbusAxi4Wait, Program.start_bind,
      Program.start_getState, Behavior.finish_bind]
    simp only [tests, ne_eq, not_false_eq_true, if_true]
    exact .finish _ bus
  · have tests : testInterrupts irqMask bus = 0 := not_not.mp found
    have start : (simbusAxi4Wait states.length irqMask).start bus =
        (Program.loop (waitTurn irqMask) states.length).start bus := by
      rw [simbusAxi4Wait, Program.start_bind, Program.start_getState,
        Behavior.finish_bind]
      simp only [tests, ne_eq, not_true_eq_false, if_false]
    rw [start]
    exact waitLoop_returns turns found

/--
The wait stops at once or after the first of its clocks with an active interrupt,
with a positive result and the mask of the active ones; without one it returns 0
and an empty mask after all of them.
-/
def WaitsRight
    (irqMask : Option (BitVec 32))
    (bus : SimbusAxi4 User)
    (replies : List (List MasterReply))
    (states : List (SimbusAxi4 User)) : Prop :=
  ∃ count final exchanges rc active,
    StopsAt (AnyActive irqMask) (bus :: states) count final ∧
    Returns ((simbusAxi4Wait states.length irqMask).start bus)
      (replies.take count).flatten exchanges (rc, irqMask.map fun _ => active)
      final ∧
    ActiveMask irqMask final active ∧
    (0 < rc ↔ AnyActive irqMask final) ∧
    (¬ AnyActive irqMask final → rc = 0)

theorem found_iff
    {irqMask : Option (BitVec 32)}
    {bus : SimbusAxi4 User}
    (wired : MaskWired irqMask bus.widths.irqWidth) :
    Found irqMask bus ↔ AnyActive irqMask bus := by
  rw [Found, ne_eq, (testInterrupts_active wired).eq_zero_iff, not_not]

/--
On every sequence of clocks the wait is right if and only if its mask has no bit
beyond the wired lines, of which the library holds at most `axi4MaxIrq`.
-/
theorem simbusAxi4Wait_iff
    {bus : SimbusAxi4 User}
    {replies : List (List MasterReply)}
    {states : List (SimbusAxi4 User)}
    (turns : Turns axi4NextPosedge () bus replies states)
    (irqMask : Option (BitVec 32)) :
    WaitsRight irqMask bus replies states ↔
      MaskWired irqMask bus.widths.irqWidth := by
  obtain ⟨count, final, exchanges, stops, returns⟩ :=
    simbusAxi4Wait_returns turns irqMask
  have widths := turns.keeps (axi4NextPosedge_widths bus.widths) rfl
  have allWidths : ∀ later ∈ bus :: states,
      later.widths.irqWidth = bus.widths.irqWidth := by
    refine List.forall_mem_cons.mpr ⟨rfl, fun later member => ?_⟩
    rw [widths later member]
  constructor
  · rintro ⟨count', final', exchanges', rc, active, stops', returns', isActive,
      _, _⟩ idx beyond
    by_contra set
    have enabled : (irqMask.getD 0).getLsbD idx = true := by
      rwa [Bool.not_eq_false] at set
    -- The bit is found at once, and it is not in the right mask.
    have bit (later : SimbusAxi4 User)
        (same : later.widths.irqWidth = bus.widths.irqWidth) :
        (testInterrupts irqMask later).getLsbD idx = true :=
      (testInterrupts_getLsbD irqMask later idx).mpr
        (.inr ⟨enabled, same.symm ▸ beyond⟩)
    have found : Found irqMask bus := by
      intro none
      have now := bit bus rfl
      rw [none] at now
      simp at now
    obtain ⟨rfl, rfl⟩ := (StopsAt.now found).unique stops
    rw [List.take_zero, List.flatten_nil] at returns
    have atOnce := returns.of_prefix returns' (List.nil_prefix)
    rw [atOnce] at returns'
    obtain ⟨sameResult, rfl⟩ := returns.unique returns'
    rw [waitResult_found found] at sameResult
    have sameMask := congrArg Prod.snd sameResult
    cases irqMask with
    | none =>
        cases sameMask
    | some mask =>
        simp only [Option.map_some, Option.some.injEq] at sameMask
        have wrong := bit final' rfl
        rw [← sameMask, isActive] at wrong
        exact (Nat.not_lt.mpr beyond wrong.2.1).elim
  · intro wired
    have foundIff : ∀ later ∈ bus :: states,
        (Found irqMask later ↔ AnyActive irqMask later) := by
      intro later member
      have sameWidth := allWidths later member
      exact found_iff (sameWidth ▸ wired)
    have isFinal : final ∈ bus :: states := List.mem_of_getElem? stops.here
    have sameWidth := allWidths final isFinal
    refine ⟨count, final, exchanges, _, testInterrupts irqMask final,
      stops.congr foundIff, returns, testInterrupts_active (sameWidth ▸ wired),
      ?_, ?_⟩
    · rw [← foundIff final isFinal]
      by_cases tests : testInterrupts irqMask final ≠ 0
      · rw [if_pos tests]
        exact ⟨fun _ => tests, fun _ => Int.one_pos⟩
      · rw [if_neg tests]
        exact ⟨fun positive => (lt_irrefl _ positive).elim,
          fun found => (tests found).elim⟩
    · rw [← foundIff final isFinal]
      intro missed
      exact if_neg missed

end

/-! ## A master with two lines -/

/-- A master right after an edge, with two interrupt lines. -/
def twoLines : SimbusAxi4 Unit :=
  { SimbusAxi4.init ()
      { dataWidth := 32, addrWidth := 32, widWidth := 4, ridWidth := 4,
        irqWidth := 2 } with
    aclk := .one }

/-- The texts of a slave that drives both of them. -/
def drivesLines (widths : Widths) : SlaveSignal → Text
  | .irq => [.one, .one]
  | signal =>
      List.replicate ((SimbusAxi4.slaveLength widths signal).getD 1) .zero

/-- One clock with such a slave. -/
def linesClock : List MasterReply :=
  [Logic4.zero, .one].map fun level =>
    .until level (drivesLines twoLines.widths)

/-- The master after it. -/
def linesUp : SimbusAxi4 Unit :=
  (twoLines.sampleMaster .zero (drivesLines twoLines.widths)).sampleMaster .one
    (drivesLines twoLines.widths)

/-- The wait for one of the two lines is right. -/
theorem simbusAxi4Wait_twoLines :
    WaitsRight (some 1) twoLines [linesClock] [linesUp] ↔
      MaskWired (some 1) 2 := by
  obtain ⟨exchanges, once⟩ := returns_of_run
    (show (axi4NextPosedge.start twoLines).run linesClock =
      .finished () linesUp [] from rfl)
  exact simbusAxi4Wait_iff (.turn once .none) (some 1)

/-- A third line, which is not there, ends the wait at once. -/
theorem simbusAxi4Wait_unwired :
    ((simbusAxi4Wait 5 (some 4)).start twoLines).run [] =
        .finished (1, some 4) twoLines [] ∧
      ¬ AnyActive (some 4) twoLines ∧
      ∀ replies states, ¬ WaitsRight (some 4) twoLines replies states := by
  have inactive : ¬ AnyActive (some 4) twoLines := by
    rintro ⟨idx, _, _, isOne⟩
    cases isOne
  refine ⟨rfl, inactive, ?_⟩
  rintro replies states ⟨count, final, exchanges, rc, active, stops, returns,
    isActive, _, _⟩
  have atOnce : Returns ((simbusAxi4Wait states.length (some 4)).start twoLines)
      [] [] (1, some 4) twoLines := .finish _ _
  have inputs := atOnce.of_prefix returns List.nil_prefix
  rw [inputs] at returns
  obtain ⟨sameResult, rfl⟩ := atOnce.unique returns
  have sameMask := congrArg Prod.snd sameResult
  have isFour : active = 4 := Option.some.inj sameMask
  have bit : active.getLsbD 2 = true := by
    rw [isFour]
    decide
  exact inactive ⟨2, (isActive 2).mp bit⟩

end Simbus.Axi4
