import Simbus.Clocked.Progress
import Simbus.Pci.Exclusion
import Simbus.Pci.TargetIdle

/-!
# Address phases from a master to a target

A master clocks out one or two address phases, and a waiting target looks at the
bus on every rising edge.  On a conventional bus the machine of the target puts
together the address and the command of the master, and takes as many clocks
for them as the master.
-/

namespace Simbus.Pci

open FourValued Clocked PciProtocol

/-! ## The lines of an address phase -/

/-- What is driven on FRAME#, C/BE# and AD arrives. -/
structure CarriesAddress (out seen : BiSignals) : Prop where
  frameN : out.frameN ≠ .z → seen.frameN = out.frameN
  cBe : ∀ lane, out.cBe lane ≠ .z → seen.cBe lane = out.cBe lane
  ad : ∀ line, out.ad line ≠ .z → seen.ad line = out.ad line

/-- Nothing is driven on FRAME#, C/BE# and AD. -/
structure LeavesAddress (out : BiSignals) : Prop where
  frameN : out.frameN = .z
  cBe : ∀ lane, out.cBe lane = .z
  ad : ∀ line, out.ad line = .z

/-- The server carries the address phases of the only driver to every device. -/
theorem sentTo_carriesAddress
    {n : Nat}
    {clientSignals : Fin n → ClientSignals}
    {driver dev : Fin n}
    (others : ∀ other, other ≠ driver →
      LeavesAddress (clientSignals other).bi)
    (apart : dev ≠ driver) :
    CarriesAddress (clientSignals driver).bi
      (sentTo (blendedBus clientSignals) (clientSignals dev).bi) where
  frameN := fun _ => by
    have released : (clientSignals dev).bi.get .frameN = .z :=
      (others dev apart).frameN
    exact sentTo_of_single released fun other away => (others other away).frameN
  cBe := fun lane _ => by
    have released : (clientSignals dev).bi.get (.cBe lane) = .z :=
      (others dev apart).cBe lane
    exact sentTo_of_single released fun other away =>
      (others other away).cBe lane
  ad := fun line _ => by
    have released : (clientSignals dev).bi.get (.ad line) = .z :=
      (others dev apart).ad line
    exact sentTo_of_single released fun other away => (others other away).ad line

/-! ## Exchanges of a master and a target -/

/-- The UNTIL messages of one exchange. -/
structure Heard where
  master : SendSignals
  target : SendSignals

/-- A conventional bus with one clock. -/
structure Heard.Conventional (heard : Heard) : Prop where
  sameClk : heard.target.pciClk = heard.master.pciClk
  level : heard.master.pciClk = .zero ∨ heard.master.pciClk = .one
  masterMode : heard.master.pcixcap ≠ .one
  targetMode : heard.target.pcixcap ≠ .one

/-- The replies to the master. -/
def toMaster (exchanges : List Heard) : List Reply :=
  exchanges.map fun heard => .until heard.master

/-- The replies to the target. -/
def toTarget (exchanges : List Heard) : List Reply :=
  exchanges.map fun heard => .until heard.target

/-- The rising edges of a clock, from the level before. -/
def risingEdges : Logic4 → List Heard → Nat
  | _, [] => 0
  | before, heard :: later =>
      (if before = .zero ∧ heard.master.pciClk = .one then 1 else 0) +
        risingEdges heard.master.pciClk later

section

variable {User Handle User' Handle' Value : Type}

/-- In each exchange the target sees the address phase that the master drives. -/
def Carried
    (master : Behavior (SimbusPci User Handle) Reply Value)
    (exchanges : List Heard) : Prop :=
  ∀ before heard after, exchanges = before ++ heard :: after →
    ∀ pci, master.run (toMaster before) = .waiting pci →
      CarriesAddress pci.out heard.target.bi

theorem Carried.await
    {pci : SimbusPci User Handle}
    {next : Reply → Behavior (SimbusPci User Handle) Reply Value}
    {heard : Heard}
    {exchanges : List Heard}
    (carried : Carried (.await pci next) (heard :: exchanges)) :
    CarriesAddress pci.out heard.target.bi ∧
      Carried (next (.until heard.master)) exchanges := by
  refine ⟨carried [] heard exchanges rfl pci rfl, ?_⟩
  rintro before last after rfl waiting waits
  exact carried (heard :: before) last after rfl waiting waits

/-- The inputs after some UNTIL messages. -/
def SimbusPci.sampleAll
    (pci : SimbusPci User Handle)
    (signals : List SendSignals) : SimbusPci User Handle :=
  signals.foldl SimbusPci.sample pci

section SampleAll

variable {pci : SimbusPci User Handle}
variable {signals : List SendSignals}
variable {last : SendSignals}

@[simp] theorem sampleAll_out :
    (pci.sampleAll signals).out = pci.out := by
  induction signals generalizing pci with
  | nil => rfl
  | cons head signals inductionHypothesis => exact inductionHypothesis

@[simp] theorem sampleAll_device :
    (pci.sampleAll signals).device = pci.device := by
  induction signals generalizing pci with
  | nil => rfl
  | cons head signals inductionHypothesis => exact inductionHypothesis

@[simp] theorem sampleAll_ident :
    (pci.sampleAll signals).ident = pci.ident := by
  induction signals generalizing pci with
  | nil => rfl
  | cons head signals inductionHypothesis => exact inductionHypothesis

@[simp] theorem sampleAll_dacAddrLo :
    (pci.sampleAll signals).dacAddrLo = pci.dacAddrLo := by
  induction signals generalizing pci with
  | nil => rfl
  | cons head signals inductionHypothesis => exact inductionHypothesis

@[simp] theorem sampleAll_targetState :
    (pci.sampleAll signals).targetState = pci.targetState := by
  induction signals generalizing pci with
  | nil => rfl
  | cons head signals inductionHypothesis => exact inductionHypothesis

theorem sampleAll_append (later : List SendSignals) :
    pci.sampleAll (signals ++ later) =
      (pci.sampleAll signals).sampleAll later :=
  List.foldl_append

end SampleAll

/-! ## One edge -/

/-- A loop of `__pci_next_posedge`. -/
abbrev exchangeAt (level : Logic4) : Call User Handle Unit :=
  Program.whileDo (fun pci => pci.pciClk = level) do
    let _ ← sendReadyCommand

/-- A client between an UNTIL and its next READY. -/
theorem sendReadyCommand_bind
    (pci : SimbusPci User Handle)
    (next : Int → SimbusPci User Handle →
      Behavior (SimbusPci User Handle) Reply Value) :
    ∃ later, (sendReadyCommand.start pci).bind next = .await pci later ∧
      ∀ signals, later (.until signals) = next 0 (pci.sample signals) := by
  simp only [sendReadyCommand, Program.start_exchange, Behavior.await_bind]
  refine ⟨_, rfl, fun signals => ?_⟩
  rfl

theorem exchangeAt_start
    {level : Logic4}
    {pci : SimbusPci User Handle}
    (stays : pci.pciClk = level) :
    ∃ next, (exchangeAt level).start pci = .await pci next ∧
      ∀ signals, next (.until signals) =
        (exchangeAt level).start (pci.sample signals) := by
  rw [exchangeAt, Program.start_whileDo_true (by simpa using stays)]
  · rw [Program.start_bind, Behavior.bind_assoc]
    obtain ⟨later, waits, answers⟩ := sendReadyCommand_bind pci
      fun _ state => ((pure () : Call User Handle Unit).start state).bind
        fun _ => (exchangeAt level : Call User Handle Unit).start
    exact ⟨later, waits, fun signals => answers signals⟩
  · exact fun final rest => nofun

theorem exchangeWhileClk_start
    {condition : Logic4 → Bool}
    {pci : SimbusPci User Handle}
    (stays : condition pci.pciClk) :
    ∃ next, (exchangeWhileClk condition 0).start pci = .await pci next ∧
      ∀ signals, next (.until signals) =
        (exchangeWhileClk condition 0).start (pci.sample signals) := by
  have waits : condition pci.pciClk = true ∧ (0 : Int) ≤ 0 := ⟨stays, le_refl 0⟩
  rw [exchangeWhileClk, Program.start_loop]
  · simp only [Program.start_bind, Program.start_getState, Behavior.finish_bind,
      waits, and_self, if_true, Behavior.bind_assoc]
    obtain ⟨later, waits, answers⟩ := sendReadyCommand_bind pci
      fun rc => (exchangeWhileClk condition rc : Call User Handle Int).start
    exact ⟨later, waits, fun signals => answers signals⟩
  · intro next final rest
    simp only [Program.start_bind, Program.start_getState, Behavior.finish_bind,
      waits, and_self, if_true]
    exact nofun

theorem exchangeWhileClk_done
    {condition : Logic4 → Bool}
    {pci : SimbusPci User Handle}
    (ends : condition pci.pciClk = false)
    (rc : Int) :
    (exchangeWhileClk condition rc).start pci = .finish rc pci := by
  rw [exchangeWhileClk, Program.start_loop]
  · simp only [Program.start_bind, Program.start_getState, Behavior.finish_bind,
      ends, Bool.false_eq_true, false_and, if_false]
    rfl
  · intro next final rest
    simp only [Program.start_bind, Program.start_getState, Behavior.finish_bind,
      ends, Bool.false_eq_true, false_and, if_false]
    exact nofun

/-- The messages to one of the two clients. -/
abbrev heardBy
    (client : Heard → SendSignals)
    (exchanges : List Heard) : List SendSignals :=
  exchanges.map client

/-- A master and a target that have gone through the same exchanges. -/
structure Together
    (exchanges : List Heard)
    (master : SimbusPci User Handle)
    (next : SimbusPci User Handle →
      Behavior (SimbusPci User Handle) Reply Value)
    (call : Call User' Handle' Int)
    (target : SimbusPci User' Handle')
    (value : Value)
    (final : SimbusPci User Handle)
    (used rest : List Heard) : Prop where
  split : exchanges = used ++ rest
  carried : Carried (next (master.sampleAll (heardBy Heard.master used))) rest
  finished : (next (master.sampleAll (heardBy Heard.master used))).run
    (toMaster rest) = .finished value final []
  followed : (call.start target).run (toTarget used) =
    .finished 0 (target.sampleAll (heardBy Heard.target used)) []

section Lockstep

variable {level : Logic4}
variable {condition : Logic4 → Bool}
variable {before exchanges : List Heard}
variable {master final : SimbusPci User Handle}
variable {target : SimbusPci User' Handle'}
variable {next : SimbusPci User Handle → Behavior (SimbusPci User Handle) Reply Value}
variable {value : Value}

/-- Clients that see another level of the clock do not wait for it to change. -/
theorem together_nil
    (isCondition : ∀ clk, clk = .zero ∨ clk = .one →
      (condition clk = true ↔ clk = level))
    (sameClk : target.pciClk = master.pciClk)
    (isLevel : master.pciClk = .zero ∨ master.pciClk = .one)
    (passed : master.pciClk ≠ level)
    (carried : Carried
      (((exchangeAt level).start master).bind fun _ => next) exchanges)
    (finished : (((exchangeAt level).start master).bind fun _ => next).run
      (toMaster exchanges) = .finished value final []) :
    Together exchanges master next (exchangeWhileClk condition 0) target
      value final [] exchanges := by
  have done : (exchangeAt level).start master = .finish () master :=
    Program.start_whileDo_false (by simpa using passed)
  rw [done, Behavior.finish_bind] at carried finished
  have targetDone : condition target.pciClk = false := by
    rw [sameClk, ← Bool.not_eq_true, isCondition _ isLevel]
    exact passed
  exact
    { split := rfl
      carried := carried
      finished := finished
      followed := by
        rw [exchangeWhileClk_done targetDone]
        rfl }

/-- Both clients leave the same level of the clock in the same exchange. -/
theorem exchangeAt_together
    (isCondition : ∀ clk, clk = .zero ∨ clk = .one →
      (condition clk = true ↔ clk = level))
    (sameClk : target.pciClk = master.pciClk)
    (isLevel : master.pciClk = .zero ∨ master.pciClk = .one)
    (conventional : ∀ heard ∈ exchanges, heard.Conventional)
    (carried : Carried
      (((exchangeAt level).start master).bind fun _ => next) exchanges)
    (finished : (((exchangeAt level).start master).bind fun _ => next).run
      (toMaster exchanges) = .finished value final []) :
    ∃ used rest,
      Together exchanges master next (exchangeWhileClk condition 0) target
        value final used rest ∧
      (master.pciClk = level → ∃ before last, used = before ++ [last] ∧
        (∀ heard ∈ before, heard.master.pciClk = level) ∧
        last.master.pciClk ≠ level ∧
        CarriesAddress master.out last.target.bi) ∧
      (master.pciClk ≠ level → used = []) := by
  induction exchanges generalizing master target with
  | nil =>
      by_cases stays : master.pciClk = level
      · obtain ⟨later, waits, _⟩ := exchangeAt_start stays
        rw [waits] at finished
        cases finished
      · exact ⟨[], [], together_nil isCondition sameClk isLevel stays carried
          finished, fun held => (stays held).elim, fun _ => rfl⟩
  | cons heard exchanges inductionHypothesis =>
      by_cases stays : master.pciClk = level
      · obtain ⟨later, waits, answers⟩ := exchangeAt_start stays
        rw [waits, Behavior.await_bind] at carried finished
        obtain ⟨carries, carried⟩ := carried.await
        change ((later (.until heard.master)).bind fun _ => next).run
          (toMaster exchanges) = .finished value final [] at finished
        rw [answers] at carried finished
        have targetStays : condition target.pciClk = true := by
          rw [sameClk]
          exact (isCondition _ isLevel).mpr stays
        obtain ⟨targetLater, targetWaits, targetAnswers⟩ :=
          exchangeWhileClk_start targetStays
        have first := conventional heard List.mem_cons_self
        have sampledClk : (target.sample heard.target).pciClk =
            (master.sample heard.master).pciClk := first.sameClk
        obtain ⟨used, rest, together, reached, passed⟩ :=
          inductionHypothesis sampledClk first.level
            (fun heard member => conventional heard (.tail _ member))
            carried finished
        refine ⟨heard :: used, rest, ?_, fun _ => ?_, fun away =>
          (away stays).elim⟩
        · exact
            { split := by rw [together.split, List.cons_append]
              carried := together.carried
              finished := together.finished
              followed := by
                have followed := together.followed
                rw [← targetAnswers] at followed
                rw [targetWaits]
                exact followed }
        · by_cases more : heard.master.pciClk = level
          · obtain ⟨before, last, isUsed, all, ends, lastCarries⟩ :=
              reached more
            have stillCarries : CarriesAddress master.out last.target.bi :=
              lastCarries
            have isLonger : heard :: used = (heard :: before) ++ [last] := by
              rw [isUsed, List.cons_append]
            exact ⟨heard :: before, last, isLonger,
              List.forall_mem_cons.mpr ⟨more, all⟩, ends, stillCarries⟩
          · rw [passed more]
            exact ⟨[], heard, rfl, List.forall_mem_nil _, more, carries⟩
      · exact ⟨[], _, together_nil isCondition sameClk isLevel stays carried
          finished, fun held => (stays held).elim, fun _ => rfl⟩

/-- The wait of `simbus_pci_wait` for the next rising edge. -/
def waitEdge : Call User Handle Int := do
  let rc ← exchangeWhileClk (fun clk => clk ≠ .zero) 0
  exchangeWhileClk (fun clk => clk ≠ .one) rc

theorem risingEdges_level
    (all : ∀ heard ∈ before, heard.master.pciClk = level)
    (later : List Heard) :
    risingEdges level (before ++ later) = risingEdges level later := by
  induction before with
  | nil =>
      rfl
  | cons heard before inductionHypothesis =>
      obtain ⟨first, others⟩ := List.forall_mem_cons.mp all
      have still : ¬ (level = Logic4.zero ∧ level = Logic4.one) := by
        rintro ⟨rfl, isOne⟩
        cases isOne
      rw [List.cons_append, risingEdges, first, if_neg still, Nat.zero_add]
      exact inductionHypothesis others

theorem sampleAll_sameClk
    (sameClk : target.pciClk = master.pciClk)
    (conventional : ∀ heard ∈ exchanges, heard.Conventional) :
    (target.sampleAll (heardBy Heard.target exchanges)).pciClk =
      (master.sampleAll (heardBy Heard.master exchanges)).pciClk := by
  induction exchanges generalizing master target with
  | nil =>
      exact sameClk
  | cons heard exchanges inductionHypothesis =>
      obtain ⟨first, others⟩ := List.forall_mem_cons.mp conventional
      have sampled : (target.sample heard.target).pciClk =
          (master.sample heard.master).pciClk := first.sameClk
      exact inductionHypothesis sampled others

/-- A wait for the next rising edge is one for each level of the clock. -/
theorem pciNextPosedge_halves
    (pci : SimbusPci User Handle)
    (next : SimbusPci User Handle →
      Behavior (SimbusPci User Handle) Reply Value) :
    ((pciNextPosedge.start pci).bind fun _ => next) =
      ((exchangeAt .one).start pci).bind fun _ pci =>
        ((exchangeAt .zero).start pci).bind fun _ pci =>
          next (calculateParity pci) := by
  simp only [pciNextPosedge, Program.start_bind, Behavior.bind_assoc,
    Program.start_modifyState, Behavior.finish_bind]

/-- Two calls after each other go through the exchanges of both. -/
theorem Together.trans
    {exchanges used others used' rest : List Heard}
    {between next : SimbusPci User Handle →
      Behavior (SimbusPci User Handle) Reply Value}
    {call : Call User' Handle' Int}
    {onward : Int → Call User' Handle' Int}
    (first : Together exchanges master between call target value final used
      others)
    (second : Together others
      (master.sampleAll (heardBy Heard.master used)) next (onward 0)
      (target.sampleAll (heardBy Heard.target used)) value final used' rest) :
    Together exchanges master next (call >>= onward) target value final
      (used ++ used') rest where
  split := by rw [first.split, second.split, List.append_assoc]
  carried := by
    have carried := second.carried
    rwa [← sampleAll_append, ← List.map_append] at carried
  finished := by
    have finished := second.finished
    rwa [← sampleAll_append, ← List.map_append] at finished
  followed := by
    have followed := second.followed
    rw [← sampleAll_append, ← List.map_append] at followed
    have replies : toTarget (used ++ used') = toTarget used ++ toTarget used' :=
      List.map_append
    rw [Program.start_bind, replies, bind_finished first.followed, followed]

/-- Both clients pass a rising edge in the same exchange. -/
theorem posedge_together
    (sameClk : target.pciClk = master.pciClk)
    (isLevel : master.pciClk = .zero ∨ master.pciClk = .one)
    (conventional : ∀ heard ∈ exchanges, heard.Conventional)
    (carried : Carried
      ((pciNextPosedge.start master).bind fun _ => next) exchanges)
    (finished : ((pciNextPosedge.start master).bind fun _ => next).run
      (toMaster exchanges) = .finished value final []) :
    ∃ before last rest,
      Together exchanges master (fun pci => next (calculateParity pci))
        waitEdge target value final (before ++ [last]) rest ∧
      last.master.pciClk = .one ∧
      CarriesAddress master.out last.target.bi ∧
      ∀ later, risingEdges master.pciClk (before ++ last :: later) =
        1 + risingEdges .one later := by
  rw [pciNextPosedge_halves] at carried finished
  have highClk : ∀ clk : Logic4, clk = .zero ∨ clk = .one →
      (decide (clk ≠ .zero) = true ↔ clk = .one) := by
    rintro _ (rfl | rfl) <;> decide
  have lowClk : ∀ clk : Logic4, clk = .zero ∨ clk = .one →
      (decide (clk ≠ .one) = true ↔ clk = .zero) := by
    rintro _ (rfl | rfl) <;> decide
  obtain ⟨high, others, first, reached, passed⟩ :=
    exchangeAt_together highClk sameClk isLevel conventional carried finished
  have split := first.split
  subst split
  obtain ⟨highConventional, conventional⟩ := List.forall_mem_append.mp conventional
  have isLow : (master.sampleAll (heardBy Heard.master high)).pciClk = .zero := by
    by_cases atOne : master.pciClk = .one
    · obtain ⟨before, last, rfl, _, ends, _⟩ := reached atOne
      have level := (highConventional last (by simp)).level
      rw [heardBy, List.map_append, sampleAll_append]
      exact level.resolve_right ends
    · rw [passed atOne]
      exact isLevel.resolve_right atOne
  have sameLow := sampleAll_sameClk sameClk highConventional
  obtain ⟨low, rest, second, reached', _⟩ :=
    exchangeAt_together lowClk sameLow (.inl isLow) conventional first.carried
      first.finished
  obtain ⟨before, last, rfl, all, ends, carries⟩ := reached' isLow
  have split := second.split
  subst split
  have isLast : last.master.pciClk = .one :=
    (conventional last (by simp)).level.resolve_left ends
  refine ⟨high ++ before, last, rest, ?_, isLast, ?_, ?_⟩
  · have both := first.trans second
    simp only [List.append_assoc] at both ⊢
    exact both
  · rwa [sampleAll_out] at carries
  · intro later
    have fromLow : risingEdges .zero (before ++ last :: later) =
        1 + risingEdges .one later := by
      rw [risingEdges_level all, risingEdges, if_pos ⟨rfl, isLast⟩, isLast]
    by_cases atOne : master.pciClk = .one
    · obtain ⟨highs, falling, rfl, allHigh, fell, _⟩ := reached atOne
      have level := (highConventional falling (by simp)).level
      have isFalling := level.resolve_right fell
      have still : ¬ (Logic4.one = .zero ∧ falling.master.pciClk = .one) :=
        fun both => nomatch both.1
      rw [atOne, List.append_assoc, List.append_assoc, risingEdges_level allHigh,
        List.singleton_append, risingEdges, if_neg still, isFalling,
        Nat.zero_add, fromLow]
    · rw [passed atOne, isLevel.resolve_right atOne, List.nil_append, fromLow]

end Lockstep

/-! ## What the machine decodes -/

/-- The region of a device that claims an address. -/
def Device.regionFor
    (device : Device User' Handle')
    (addr : BitVec 64) : Option (Fin 8) :=
  (List.finRange 8).find? fun idx => (device.memTarget idx).claims addr

/-- A memory read or write. -/
def MemoryCommand (cmd : BitVec 32) : Prop :=
  cmd = 6 ∨ cmd = 7 ∨ cmd = 0xc ∨ cmd = 0xe

/-- A memory cycle of one command, for the region that claims its address. -/
def serveMemory
    (callbacks : Callbacks User' Handle')
    (requestBus : Call User' Handle' Unit)
    (cmd : BitVec 32) :
    Option (Fin 8) → Call User' Handle' Unit
  | none => setTargetState .busBusy
  | some bar =>
      if cmd = 7 then
        doTargetMemoryWrite callbacks bar
      else
        doTargetMemoryRead callbacks requestBus bar

/-- The machine serves a memory command in both decoding states. -/
theorem pciTargetStateMachine_memory
    {callbacks : Callbacks User' Handle'}
    {requestBus : Call User' Handle' Unit}
    {cmd : BitVec 32}
    {pci : SimbusPci User' Handle'}
    (memory : MemoryCommand cmd)
    (decodes : pci.targetState = .idle ∨ pci.targetState = .dac)
    (identBelow : pci.ident < 16)
    (framed : pci.seen.frameN = .zero)
    (isCommand : getCommand pci = cmd.setWidth 4) :
    (pciTargetStateMachine callbacks requestBus).start pci =
      (serveMemory callbacks requestBus cmd
        (pci.device.regionFor (getAddr pci))).start pci := by
  have isRegion : matchMemTarget pci = pci.device.regionFor (getAddr pci) :=
    rfl
  rw [pciTargetStateMachine, Program.start_bind, Program.start_assert]
  simp only [identBelow, or_true, decide_true, if_true, Behavior.finish_bind,
    Program.start_bind, Program.start_getState]
  rw [← isRegion]
  rcases memory with rfl | rfl | rfl | rfl <;>
    rcases decodes with state | state <;>
    cases region : matchMemTarget pci <;>
    simp [targetAction, memoryAction, state, framed, region, isCommand,
      serveMemory]

/-- The machine stores the first half of an address. -/
theorem pciTargetStateMachine_dual
    {callbacks : Callbacks User' Handle'}
    {requestBus : Call User' Handle' Unit}
    {pci : SimbusPci User' Handle'}
    (idle : pci.targetState = .idle)
    (identBelow : pci.ident < 16)
    (framed : pci.seen.frameN = .zero)
    (isCommand : getCommand pci = 0xd) :
    (pciTargetStateMachine callbacks requestBus).start pci =
      .finish ()
        { pci with dacAddrLo := getAddr32 pci, targetState := .dac } := by
  have unclaimed : memoryAction pci = none := by
    unfold memoryAction
    split <;> simp [isCommand]
  have action : targetAction pci = .dualAddress := by
    simp [targetAction, idle, framed, unclaimed, isCommand]
  rw [pciTargetStateMachine_unselected pci identBelow (by rw [action]; rfl),
    followBus, action]

/-! ## What the master drives -/

/-- One address phase on the lines. -/
structure DrivesAddress
    (out : BiSignals)
    (cmd : BitVec 4)
    (word : BitVec 32) : Prop where
  frameN : out.frameN = .zero
  cBe : ∀ lane, out.cBe (lowLane lane) = driveWord cmd lane
  ad : ∀ line, out.ad (lowLine line) = driveWord word line

/-- What a target samples of an address phase. -/
theorem DrivesAddress.sampled
    {out : BiSignals}
    {cmd : BitVec 4}
    {word : BitVec 32}
    {pci : SimbusPci User' Handle'}
    (drives : DrivesAddress out cmd word)
    (carries : CarriesAddress out pci.seen) :
    pci.seen.frameN = .zero ∧ getCommand pci = cmd ∧ getLowWord pci = word := by
  refine ⟨?_, ?_, ?_⟩
  · have driven : out.frameN ≠ .z := by
      rw [drives.frameN]
      nofun
    rw [carries.frameN driven, drives.frameN]
  · refine sampleWord_eq fun lane => ?_
    have driven : out.cBe (lowLane lane) ≠ .z := by
      rw [drives.cBe]
      exact driveWord_ne_z cmd lane
    rw [carries.cBe _ driven, drives.cBe]
  · refine sampleWord_eq fun line => ?_
    have driven : out.ad (lowLine line) ≠ .z := by
      rw [drives.ad]
      exact driveWord_ne_z word line
    rw [carries.ad _ driven, drives.ad]

theorem driveLowBe_drivesAddress
    {out : BiSignals}
    {word : BitVec 32}
    (cmd : BitVec 4)
    (frameN : out.frameN = .zero)
    (ad : ∀ line, out.ad (lowLine line) = driveWord word line) :
    DrivesAddress (driveLowBe cmd out) cmd word where
  frameN := frameN
  cBe := fun lane => by
    rw [driveLowBe]
    exact dif_pos lane.isLt
  ad := ad

/-- The low half of the address is driven on the low lines in any case. -/
theorem driveAddr_low
    (addr : BitVec 64)
    (out : BiSignals)
    (line : Fin 32) :
    (driveAddr addr out).ad (lowLine line) =
      driveWord (addr.setWidth 32) line := by
  unfold driveAddr
  split
  · change driveWord addr (lowLine line) = _
    simp only [driveWord, Fin.getElem_fin, lowLine]
    rw [BitVec.getElem_setWidth, BitVec.getLsbD_eq_getElem]
  · exact dif_pos line.isLt

/-- The state in which a master clocks out its first address phase. -/
def firstAddress
    (addr : BitVec 64)
    (cmd : BitVec 4)
    (flag64 : Bool)
    (master : SimbusPci User Handle) : SimbusPci User Handle :=
  { master with
    out := driveLowBe cmd (driveAddr addr (startFrame flag64 master.out)) }

/-- The state in which it clocks out the second one. -/
def secondAddress
    (addr : BitVec 64)
    (cmd : BitVec 4)
    (master : SimbusPci User Handle) : SimbusPci User Handle :=
  { master with
    out :=
      driveLowBe cmd
        (driveAddress ((addr >>> 32).setWidth 32) master.out) }

theorem firstAddress_drives
    (addr : BitVec 64)
    (cmd : BitVec 4)
    (flag64 : Bool)
    (master : SimbusPci User Handle) :
    DrivesAddress (firstAddress addr cmd flag64 master).out cmd
      (addr.setWidth 32) := by
  refine driveLowBe_drivesAddress cmd ?_ (driveAddr_low addr _)
  unfold driveAddr
  split <;> rfl

theorem secondAddress_drives
    {master : SimbusPci User Handle}
    (addr : BitVec 64)
    (cmd : BitVec 4)
    (framed : master.out.frameN = .zero) :
    DrivesAddress (secondAddress addr cmd master).out cmd
      ((addr >>> 32).setWidth 32) :=
  driveLowBe_drivesAddress cmd framed fun line => dif_pos line.isLt

/-- After its last address phase. -/
def endAddress
    (ben : BitVec 32)
    (burst : Bool) : Call User Handle Unit := do
  attributePhase ben
  Program.modifyState (startData burst)

theorem addressCommand_single
    {addr : BitVec 64}
    (cmd ben : BitVec 32)
    (flag64 burst : Bool)
    (short : (addr >>> 32).setWidth 32 = (0 : BitVec 32))
    (master : SimbusPci User Handle) :
    (addressCommand addr cmd ben flag64 burst).start master =
      (pciNextPosedge.start
        (firstAddress addr (cmd.setWidth 4) flag64 master)).bind fun _ =>
          (endAddress ben burst).start := by
  simp only [addressCommand, drive, dualAddressPhase, short, ne_eq,
    not_true_eq_false, if_false, Program.start_bind, Program.start_modifyState,
    Program.start_pure, Behavior.finish_bind, endAddress]
  rfl

theorem addressCommand_dual
    {addr : BitVec 64}
    (cmd ben : BitVec 32)
    (flag64 burst : Bool)
    (long : (addr >>> 32).setWidth 32 ≠ (0 : BitVec 32))
    (master : SimbusPci User Handle) :
    (addressCommand addr cmd ben flag64 burst).start master =
      (pciNextPosedge.start (firstAddress addr 0xd flag64 master)).bind
        fun _ pci =>
          (pciNextPosedge.start
            (secondAddress addr (cmd.setWidth 4) pci)).bind fun _ =>
              (endAddress ben burst).start := by
  simp only [addressCommand, drive, dualAddressPhase, long, ne_eq,
    not_false_eq_true, if_true, Program.start_bind, Program.start_modifyState,
    Behavior.finish_bind, Behavior.bind_assoc, endAddress]
  rfl

/-- A conventional bus has no attribute phase. -/
theorem endAddress_start
    {pci : SimbusPci User Handle}
    (conventional : pci.pcixcap ≠ .one)
    (ben : BitVec 32)
    (burst : Bool) :
    (endAddress ben burst).start pci = .finish () (startData burst pci) := by
  simp only [endAddress, attributePhase, pcixMode, Program.start_bind,
    Program.start_getState, Behavior.finish_bind, conventional, decide_false,
    Bool.false_eq_true, if_false]
  rfl

/-! ## A waiting target -/

/-- What `simbus_pci_wait` does once it has passed an edge. -/
def afterEdge
    (machine : Call User' Handle' Unit)
    (useIrq : BitVec 64)
    (clks : Nat) : Call User' Handle' (Except Int (BitVec 64)) := do
  machine
  let pci ← Program.getState
  if pci.device.breakFlag ∧ pci.targetState = .idle then
    return .error simbusPciBreak
  else
    waitLoop machine useIrq clks (intrActive pci)

/-- A wait for no interrupt that has some clocks left. -/
theorem waitLoop_start
    (machine : Call User' Handle' Unit)
    (clks : Nat)
    (mask : BitVec 64)
    (target : SimbusPci User' Handle') :
    (waitLoop machine 0 (clks + 1) mask).start target =
      (waitEdge.start target).bind fun rc =>
        if rc < 0 then (pure (.error rc) : Call User' Handle' _).start
        else (afterEdge machine 0 clks).start := by
  rw [waitLoop, if_neg (by simp), waitEdge, Program.start_bind,
    Program.start_bind, Behavior.bind_assoc]
  congr 1
  funext rc state
  rw [Program.start_bind]
  congr 1
  funext rc state
  rw [Program.start_ite]
  split <;> rfl

/-- One clock of such a wait. -/
theorem waitLoop_resumeAll
    {replies : List Reply}
    {target later : SimbusPci User' Handle'}
    (machine : Call User' Handle' Unit)
    (clks : Nat)
    (mask : BitVec 64)
    (followed : (waitEdge.start target).run replies = .finished 0 later []) :
    ((waitLoop machine 0 (clks + 1) mask).start target).resumeAll replies =
      (afterEdge machine 0 clks).start later := by
  rw [waitLoop_start, Behavior.resumeAll_bind _ followed]
  rfl

section Last

variable {pci : SimbusPci User Handle}
variable {signals : List SendSignals}
variable {last : SendSignals}

theorem sampleAll_seen :
    (pci.sampleAll (signals ++ [last])).seen = last.bi := by
  rw [sampleAll_append]
  rfl

theorem sampleAll_pcixcap :
    (pci.sampleAll (signals ++ [last])).pcixcap = last.pcixcap := by
  rw [sampleAll_append]
  rfl

theorem sampleAll_pciClk :
    (pci.sampleAll (signals ++ [last])).pciClk = last.pciClk := by
  rw [sampleAll_append]
  rfl

end Last

/-- The two halves of an address that needs a dual address cycle. -/
theorem address_halves (addr : BitVec 64) :
    (((addr >>> 32).setWidth 32).setWidth 64 <<< 32) +
      (addr.setWidth 32).setWidth 64 = addr := by
  apply BitVec.eq_of_toNat_eq
  have bounded := addr.isLt
  simp only [BitVec.toNat_add, BitVec.toNat_shiftLeft, BitVec.toNat_setWidth,
    BitVec.toNat_ushiftRight, Nat.shiftLeft_eq, Nat.shiftRight_eq_div_pow]
  omega

/-- An address below `2 ^ 32`. -/
theorem address_low
    {addr : BitVec 64}
    (short : (addr >>> 32).setWidth 32 = (0 : BitVec 32)) :
    (addr.setWidth 32).setWidth 64 = addr := by
  have halves := address_halves addr
  rw [short] at halves
  simpa using halves

/-! ## From the master to the target -/

section Decoded

variable {callbacks : Callbacks User' Handle'}
variable {requestBus : Call User' Handle' Unit}
variable {addr : BitVec 64}
variable {cmd ben : BitVec 32}
variable {flag64 burst : Bool}
variable {master final : SimbusPci User Handle}
variable {target decoded : SimbusPci User' Handle'}
variable {exchanges : List Heard}
variable {clks : Nat}
variable {mask : BitVec 64}

/-- After some clocks of a wait the machine serves a command at an address. -/
structure Decodes
    (callbacks : Callbacks User' Handle')
    (requestBus : Call User' Handle' Unit)
    (addr : BitVec 64)
    (cmd : BitVec 32)
    (target : SimbusPci User' Handle')
    (exchanges : List Heard)
    (phases clks : Nat)
    (mask : BitVec 64)
    (decoded : SimbusPci User' Handle') : Prop where
  waits :
    let machine := pciTargetStateMachine callbacks requestBus
    ((waitLoop machine 0 (clks + phases) mask).start target).resumeAll
        (toTarget exchanges) =
      (afterEdge machine 0 clks).start decoded
  address : getAddr decoded = addr
  command : getCommand decoded = cmd.setWidth 4
  serves :
    (pciTargetStateMachine callbacks requestBus).start decoded =
      (serveMemory callbacks requestBus cmd
        (target.device.regionFor addr)).start decoded

/-- The phase that carries the command, in both decoding states. -/
theorem decodes_phase
    {before : List Heard}
    {last : Heard}
    {out : BiSignals}
    {word : BitVec 32}
    (memory : MemoryCommand cmd)
    (decodes : target.targetState = .idle ∨ target.targetState = .dac)
    (identBelow : target.ident < 16)
    (drives : DrivesAddress out (cmd.setWidth 4) word)
    (carries : CarriesAddress out last.target.bi)
    (followed : (waitEdge.start target).run (toTarget (before ++ [last])) =
      .finished 0
        (target.sampleAll (heardBy Heard.target (before ++ [last]))) [])
    (address : word.setWidth 64 = addr ∧ target.targetState = .idle ∨
      (word.setWidth 64 <<< 32) + target.dacAddrLo = addr ∧
        target.targetState = .dac) :
    Decodes callbacks requestBus addr cmd target (before ++ [last]) 1 clks mask
      (target.sampleAll (heardBy Heard.target (before ++ [last]))) := by
  generalize isDecoded :
    target.sampleAll (heardBy Heard.target (before ++ [last])) = decoded
      at followed ⊢
  have seen : decoded.seen = last.target.bi := by
    rw [← isDecoded, heardBy, List.map_append]
    exact sampleAll_seen
  have sameDevice : decoded.device = target.device := by
    rw [← isDecoded, sampleAll_device]
  have sameState : decoded.targetState = target.targetState := by
    rw [← isDecoded, sampleAll_targetState]
  have sameLow : decoded.dacAddrLo = target.dacAddrLo := by
    rw [← isDecoded, sampleAll_dacAddrLo]
  have sameIdent : decoded.ident = target.ident := by
    rw [← isDecoded, sampleAll_ident]
  rw [← seen] at carries
  obtain ⟨framed, command, isWord⟩ := drives.sampled carries
  have isAddr : getAddr decoded = addr := by
    rw [getAddr, getAddr32, isWord, sameLow, sameState]
    rcases address with ⟨short, idle⟩ | ⟨long, dual⟩
    · rw [if_pos (by rw [idle]; nofun), short]
    · rw [if_neg (by rw [dual]; simp), long]
  have serves :
      (pciTargetStateMachine callbacks requestBus).start decoded = _ :=
    pciTargetStateMachine_memory memory (sameState ▸ decodes)
      (sameIdent ▸ identBelow) framed command
  rw [isAddr, sameDevice] at serves
  exact
    { waits := waitLoop_resumeAll _ clks mask followed
      address := isAddr
      command := command
      serves := serves }

/-- A master that has clocked out its last phase takes no more replies. -/
theorem nothing_left
    {before rest : List Heard}
    {last : Heard}
    (conventional : ∀ heard ∈ exchanges, heard.Conventional)
    (split : exchanges = before ++ [last] ++ rest)
    (finished : ((endAddress ben burst).start (calculateParity
      (master.sampleAll (heardBy Heard.master (before ++ [last]))))).run
        (toMaster rest) = .finished () final []) :
    rest = [] := by
  have isConventional : last.master.pcixcap ≠ .one :=
    (conventional last (by simp [split])).masterMode
  have sampled : (calculateParity (master.sampleAll
      (heardBy Heard.master (before ++ [last])))).pcixcap ≠ .one := by
    rw [heardBy, List.map_append]
    exact fun isPcix => isConventional (sampleAll_pcixcap.symm.trans isPcix)
  rw [endAddress_start sampled, Behavior.run_finish] at finished
  cases rest with
  | nil =>
      rfl
  | cons heard rest =>
      cases finished

/-- Without a dual address cycle there is one phase. -/
theorem addressCommand_decodes_single
    (memory : MemoryCommand cmd)
    (short : (addr >>> 32).setWidth 32 = (0 : BitVec 32))
    (sameClk : target.pciClk = master.pciClk)
    (isLevel : master.pciClk = .zero ∨ master.pciClk = .one)
    (idle : target.targetState = .idle)
    (identBelow : target.ident < 16)
    (conventional : ∀ heard ∈ exchanges, heard.Conventional)
    (carried : Carried
      ((addressCommand addr cmd ben flag64 burst).start master) exchanges)
    (finished : ((addressCommand addr cmd ben flag64 burst).start master).run
      (toMaster exchanges) = .finished () final []) :
    risingEdges master.pciClk exchanges = 1 ∧
      ∃ decoded, Decodes callbacks requestBus addr cmd target exchanges 1 clks
        mask decoded := by
  rw [addressCommand_single cmd ben flag64 burst short] at carried finished
  have firstClk : target.pciClk =
      (firstAddress addr (cmd.setWidth 4) flag64 master).pciClk := sameClk
  obtain ⟨before, last, rest, together, _, carries, rises⟩ :=
    posedge_together firstClk isLevel conventional carried finished
  obtain rfl : rest = [] :=
    nothing_left conventional together.split together.finished
  have split := together.split
  rw [List.append_nil] at split
  subst split
  have drives := firstAddress_drives addr (cmd.setWidth 4) flag64 master
  have address := address_low short
  refine ⟨?_, _, decodes_phase memory (.inl idle) identBelow drives carries
    together.followed (.inl ⟨address, idle⟩)⟩
  have counted := rises []
  rwa [risingEdges, Nat.add_zero] at counted

/-- A target that has seen the first phase of a dual address cycle. -/
def storeLow
    (word : BitVec 32)
    (pci : SimbusPci User' Handle') : SimbusPci User' Handle' :=
  { pci with dacAddrLo := word.setWidth 64, targetState := .dac }

/-- The first phase of a dual address cycle is stored. -/
theorem stores_phase
    {before : List Heard}
    {last : Heard}
    {out : BiSignals}
    {word : BitVec 32}
    (callbacks : Callbacks User' Handle')
    (requestBus : Call User' Handle' Unit)
    (clks : Nat)
    (mask : BitVec 64)
    (idle : target.targetState = .idle)
    (identBelow : target.ident < 16)
    (drives : DrivesAddress out 0xd word)
    (carries : CarriesAddress out last.target.bi)
    (followed : (waitEdge.start target).run (toTarget (before ++ [last])) =
      .finished 0
        (target.sampleAll (heardBy Heard.target (before ++ [last]))) []) :
    let machine := pciTargetStateMachine callbacks requestBus
    let stored := storeLow word
      (target.sampleAll (heardBy Heard.target (before ++ [last])))
    ((waitLoop machine 0 (clks + 1) mask).start target).resumeAll
        (toTarget (before ++ [last])) =
      (waitLoop machine 0 clks (intrActive stored)).start stored := by
  intro machine stored
  have seen : (target.sampleAll
      (heardBy Heard.target (before ++ [last]))).seen = last.target.bi := by
    rw [heardBy, List.map_append]
    exact sampleAll_seen
  rw [← seen] at carries
  obtain ⟨framed, command, isWord⟩ := drives.sampled carries
  have turn : machine.start (target.sampleAll
      (heardBy Heard.target (before ++ [last]))) = .finish () stored := by
    have stillBelow : (target.sampleAll
        (heardBy Heard.target (before ++ [last]))).ident < 16 := by
      rwa [sampleAll_ident]
    rw [pciTargetStateMachine_dual (sampleAll_targetState.trans idle)
      stillBelow framed command, getAddr32, isWord]
    rfl
  rw [waitLoop_resumeAll machine clks mask followed, afterEdge,
    Program.start_bind, turn, Behavior.finish_bind]
  have goesOn : ¬ (stored.device.breakFlag = true ∧ stored.targetState = .idle) :=
    fun both => nomatch both.2
  rw [Program.start_bind, Program.start_getState, Behavior.finish_bind,
    if_neg goesOn]

/-- What is decoded after the first phase is decoded after both of them. -/
theorem Decodes.afterFirst
    {first second : List Heard}
    {stored decoded : SimbusPci User' Handle'}
    (resumes : ((waitLoop (pciTargetStateMachine callbacks requestBus) 0
      (clks + 2) mask).start target).resumeAll (toTarget first) =
        (waitLoop (pciTargetStateMachine callbacks requestBus) 0 (clks + 1)
          (intrActive stored)).start stored)
    (sameDevice : stored.device = target.device)
    (decodes : Decodes callbacks requestBus addr cmd stored second 1 clks
      (intrActive stored) decoded) :
    Decodes callbacks requestBus addr cmd target (first ++ second) 2 clks mask
      decoded where
  waits := by
    have replies : toTarget (first ++ second) =
        toTarget first ++ toTarget second := List.map_append
    intro machine
    rw [replies, Behavior.resumeAll_append]
    exact (congrArg (Behavior.resumeAll · _) resumes).trans decodes.waits
  address := decodes.address
  command := decodes.command
  serves := sameDevice ▸ decodes.serves

/-- With one the first phase is stored, and there are two. -/
theorem addressCommand_decodes_dual
    (memory : MemoryCommand cmd)
    (long : (addr >>> 32).setWidth 32 ≠ (0 : BitVec 32))
    (sameClk : target.pciClk = master.pciClk)
    (isLevel : master.pciClk = .zero ∨ master.pciClk = .one)
    (idle : target.targetState = .idle)
    (identBelow : target.ident < 16)
    (conventional : ∀ heard ∈ exchanges, heard.Conventional)
    (carried : Carried
      ((addressCommand addr cmd ben flag64 burst).start master) exchanges)
    (finished : ((addressCommand addr cmd ben flag64 burst).start master).run
      (toMaster exchanges) = .finished () final []) :
    risingEdges master.pciClk exchanges = 2 ∧
      ∃ decoded, Decodes callbacks requestBus addr cmd target exchanges 2 clks
        mask decoded := by
  rw [addressCommand_dual cmd ben flag64 burst long] at carried finished
  have firstClk : target.pciClk =
      (firstAddress addr 0xd flag64 master).pciClk := sameClk
  obtain ⟨before, last, rest, first, isOne, carries, rises⟩ :=
    posedge_together firstClk isLevel conventional carried finished
  have split := first.split
  subst split
  obtain ⟨firstConventional, conventional⟩ :=
    List.forall_mem_append.mp conventional
  have drives := firstAddress_drives addr 0xd flag64 master
  have sampledClk := sampleAll_sameClk firstClk firstConventional
  have resumes := stores_phase callbacks requestBus (clks + 1) mask idle
    identBelow drives carries first.followed
  generalize isStored : storeLow (addr.setWidth 32)
    (target.sampleAll (heardBy Heard.target (before ++ [last]))) = stored
      at resumes
  have storedClk : stored.pciClk = (secondAddress addr (cmd.setWidth 4)
      (calculateParity ((firstAddress addr 0xd flag64 master).sampleAll
        (heardBy Heard.master (before ++ [last]))))).pciClk := by
    rw [← isStored]
    exact sampledClk
  have masterClk : (secondAddress addr (cmd.setWidth 4)
      (calculateParity ((firstAddress addr 0xd flag64 master).sampleAll
        (heardBy Heard.master (before ++ [last]))))).pciClk = .one := by
    rw [heardBy, List.map_append]
    exact sampleAll_pciClk.trans isOne
  have framed : (calculateParity ((firstAddress addr 0xd flag64 master).sampleAll
      (heardBy Heard.master (before ++ [last])))).out.frameN = .zero := by
    change ((firstAddress addr 0xd flag64 master).sampleAll _).out.frameN = _
    rw [sampleAll_out, drives.frameN]
  obtain ⟨before', last', rest', second, _, carries', rises'⟩ :=
    posedge_together storedClk (.inr masterClk) conventional first.carried
      first.finished
  obtain rfl : rest' = [] :=
    nothing_left conventional second.split second.finished
  have split := second.split
  rw [List.append_nil] at split
  subst split
  have storedBelow : stored.ident < 16 := by
    rw [← isStored]
    change (target.sampleAll _).ident < 16
    rwa [sampleAll_ident]
  have address : (((addr >>> 32).setWidth 32).setWidth 64 <<< 32) +
      stored.dacAddrLo = addr := by
    rw [← isStored]
    exact address_halves addr
  have isDac : stored.targetState = .dac := by
    rw [← isStored]
    rfl
  have sameDevice : stored.device = target.device := by
    rw [← isStored]
    exact sampleAll_device
  have decodes : Decodes callbacks requestBus addr cmd stored
      (before' ++ [last']) 1 clks (intrActive stored) _ :=
    decodes_phase memory (.inr isDac) storedBelow
      (secondAddress_drives addr (cmd.setWidth 4) framed) carries'
      second.followed (.inr ⟨address, isDac⟩)
  refine ⟨?_, _, decodes.afterFirst resumes sameDevice⟩
  have counted := rises (before' ++ [last'])
  have counted' := rises' []
  rw [masterClk] at counted'
  rw [List.append_assoc, List.singleton_append]
  exact counted.trans (congrArg (1 + ·) counted')

/--
The machine of a waiting target decodes and serves exactly the address and the
command of `__address_command`, after as many edges as the master takes.
-/
theorem addressCommand_decoded
    (callbacks : Callbacks User' Handle')
    (requestBus : Call User' Handle' Unit)
    (clks : Nat)
    (mask : BitVec 64)
    (memory : MemoryCommand cmd)
    (sameClk : target.pciClk = master.pciClk)
    (isLevel : master.pciClk = .zero ∨ master.pciClk = .one)
    (idle : target.targetState = .idle)
    (identBelow : target.ident < 16)
    (conventional : ∀ heard ∈ exchanges, heard.Conventional)
    (carried : Carried
      ((addressCommand addr cmd ben flag64 burst).start master) exchanges)
    (finished : ((addressCommand addr cmd ben flag64 burst).start master).run
      (toMaster exchanges) = .finished () final []) :
    risingEdges master.pciClk exchanges =
        (if (addr >>> 32).setWidth 32 = (0 : BitVec 32) then 1 else 2) ∧
      ∃ decoded, Decodes callbacks requestBus addr cmd target exchanges
        (risingEdges master.pciClk exchanges) clks mask decoded := by
  by_cases short : (addr >>> 32).setWidth 32 = (0 : BitVec 32)
  · obtain ⟨counted, decodes⟩ := addressCommand_decodes_single memory short
      sameClk isLevel idle identBelow conventional carried finished
    rw [counted, if_pos short]
    exact ⟨rfl, decodes⟩
  · obtain ⟨counted, decodes⟩ := addressCommand_decodes_dual memory short
      sameClk isLevel idle identBelow conventional carried finished
    rw [counted, if_neg short]
    exact ⟨rfl, decodes⟩

end Decoded

/-! ## A bus that shows what the master drives -/

/-- The exchanges of a master with a target that sees what the master drives. -/
def mirrored :
    Behavior (SimbusPci User Handle) Reply Value → List SendSignals → List Heard
  | _, [] => []
  | client, signals :: later =>
      { master := signals
        target := { signals with bi := client.state.out } } ::
        mirrored (client.resume (.until signals)) later

theorem CarriesAddress.refl (out : BiSignals) : CarriesAddress out out :=
  ⟨fun _ => rfl, fun _ _ => rfl, fun _ _ => rfl⟩

theorem mirrored_carried
    (client : Behavior (SimbusPci User Handle) Reply Value)
    (signals : List SendSignals) :
    Carried client (mirrored client signals) := by
  induction signals generalizing client with
  | nil =>
      intro before heard after split
      cases before <;> cases split
  | cons first signals inductionHypothesis =>
      intro before heard after split pci waits
      cases before with
      | nil =>
          cases split
          have isState : client.state = pci := by
            rw [Behavior.state, show client.run [] = _ from waits]
          change CarriesAddress pci.out client.state.out
          rw [isState]
          exact CarriesAddress.refl _
      | cons passed before =>
          rw [mirrored, List.cons_append, List.cons.injEq] at split
          obtain ⟨rfl, split⟩ := split
          rcases client.cases_now with
            ⟨value, state, rfl⟩ | ⟨state, rfl⟩ | ⟨state, isAwait⟩
          · cases waits
          · cases waits
          · rw [isAwait] at waits
            exact inductionHypothesis _ before heard after split pci waits

theorem mirrored_conventional
    {client : Behavior (SimbusPci User Handle) Reply Value}
    {signals : List SendSignals}
    (conventional : ∀ sent ∈ signals,
      (sent.pciClk = .zero ∨ sent.pciClk = .one) ∧ sent.pcixcap ≠ .one) :
    ∀ heard ∈ mirrored client signals, heard.Conventional := by
  induction signals generalizing client with
  | nil =>
      exact List.forall_mem_nil _
  | cons first signals inductionHypothesis =>
      obtain ⟨now, later⟩ := List.forall_mem_cons.mp conventional
      exact List.forall_mem_cons.mpr
        ⟨⟨rfl, now.1, now.2, now.2⟩, inductionHypothesis later⟩

end

/-- The UNTIL messages of two clocks, without the bus. -/
def twoClocks : List SendSignals :=
  [Logic4.zero, .one, .zero, .one].map fun pciClk =>
    { pciClk := pciClk
      pcixcap := .zero
      gntN := .zero
      idsel := .z
      resetN := none
      intN := none
      bi := BiSignals.released }

/-- A target with a region above `2 ^ 32`. -/
def highTarget : SimbusPci Unit Unit :=
  let pci := SimbusPci.init 3 (fun _ => 0) ()
  { pci with
    pciClk := .one
    device :=
      { pci.device with
        memTarget := fun _ =>
          { SimbusTranslation.unused with
            base := 0x100000000
            mask := 0xffffffff00000000 } } }

/-- A memory read at such an address takes two phases. -/
theorem addressCommand_decoded_high :
    ∃ decoded, Decodes noCallbacks (pciRequestBus noCallbacks 1)
      0x100000000 0xc highTarget
      (mirrored
        ((addressCommand 0x100000000 0xc 0 false false).start grantedMaster)
        twoClocks)
      2 5 0 decoded := by
  have conventional : ∀ sent ∈ twoClocks,
      (sent.pciClk = .zero ∨ sent.pciClk = .one) ∧ sent.pcixcap ≠ .one := by
    rw [twoClocks, List.forall_mem_map]
    decide
  have isRead : MemoryCommand 0xc := .inr (.inr (.inl rfl))
  have sameClk : highTarget.pciClk = grantedMaster.pciClk := rfl
  have identBelow : highTarget.ident < 16 := by decide
  generalize isMaster :
    (addressCommand 0x100000000 0xc 0 false false).start grantedMaster = master
  obtain ⟨final, finished⟩ : ∃ final,
      master.run (toMaster (mirrored master twoClocks)) =
        .finished () final [] := by
    rw [← isMaster]
    exact ⟨_, rfl⟩
  subst isMaster
  obtain ⟨counted, decodes⟩ :=
    addressCommand_decoded noCallbacks (pciRequestBus noCallbacks 1) 5 0
      isRead sameClk (.inr rfl) rfl identBelow
      (mirrored_conventional conventional) (mirrored_carried _ _) finished
  rw [counted] at decodes
  exact decodes

end Simbus.Pci
