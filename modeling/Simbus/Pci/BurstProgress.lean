import Simbus.Clocked.Progress
import Simbus.Pci.BurstLanes
import Simbus.Pci.ClockCycles

/-!
# Progress of a write burst

A target that takes a burst waits for edges of the clock at which IRDY# is not 1.
If there are such edges again and again, it takes a word at each of them and comes
to the end of the burst.
-/

namespace Simbus.Pci

open FourValued Clocked

section

variable {User Handle Value Result : Type}

/-! ## Clients that come to their end -/

/-- The logic of clients that come to their end on an unending clock. -/
def clockwise
    (User Handle : Type)
    (stream : Nat → ClockCycle) : Logic (SimbusPci User Handle) Reply where
  mayFail := fun _ => False
  ok := fun post step behavior =>
    ∃ count outs value final,
      ClockRun behavior (stretch stream step count) outs value final ∧
        post value (step + count) final
  finish := fun holds => ⟨0, [], _, _, .done rfl, holds⟩
  fail := False.elim
  bind := by
    rintro _ _ _ _ step _ _ ⟨count, outs, value, middle, first, reached⟩ later
    obtain ⟨countLater, outsLater, result, final, second, holds⟩ :=
      later value (step + count) middle reached
    refine ⟨count + countLater, outs ++ outsLater, result, final, ?_, ?_⟩
    · rw [stretch_add]
      exact first.bind second
    · rw [← Nat.add_assoc]
      exact holds

variable {stream : Nat → ClockCycle}
variable {pci : SimbusPci User Handle}

/--
A loop comes to its end if each of its turns takes a clock and makes a measure
smaller, or ends it.
-/
theorem clockwise_loop
    {Local : Type}
    {body : Local → Call User Handle (Local ⊕ Result)}
    {post : Clocked.Assertion (SimbusPci User Handle) Result}
    (invariant : Local → Nat → SimbusPci User Handle → Prop)
    (measure : Local → Nat → Nat)
    (turn : ∀ current step pci, invariant current step pci →
      (clockwise User Handle stream).ok
        (Sum.elim
          (fun next step' pci' => step < step' ∧
            measure next step' < measure current step ∧
            invariant next step' pci')
          post)
        step ((body current).start pci))
    (current : Local) :
    (clockwise User Handle stream).Triple (invariant current)
      (Program.loop body current) post := by
  intro step pci before
  induction isSize : measure current step using Nat.strong_induction_on
      generalizing current step pci with
  | _ size inductionHypothesis =>
      have first := turn current step pci before
      have exchanges : ∀ next final rest,
          ((body current).start pci).run [] ≠
            .finished (.inl next) final rest := by
        intro next final rest finished
        obtain ⟨count, outs, value, after, run, reached⟩ := first
        rw [Behavior.eq_finish finished] at run
        obtain ⟨none_, _, rfl, _⟩ := run.of_finish
        have noClock : count = 0 := by
          rw [← length_stretch stream step count, none_, List.length_nil]
        rw [noClock, Nat.add_zero] at reached
        exact Nat.lt_irrefl _ reached.1
      rw [Program.start_loop exchanges]
      refine (clockwise User Handle stream).bind first ?_
      intro outcome step' pci' reached
      cases outcome with
      | inr result =>
          exact (clockwise User Handle stream).finish reached
      | inl next =>
          obtain ⟨_, smaller, after⟩ := reached
          exact inductionHypothesis _ (isSize ▸ smaller) next step' pci' after
            rfl

/-! ## A master that is ready -/

/--
A PCI-X bus whose master lets IRDY# be other than 1 at the ends of clocks again
and again.
-/
structure MasterReady (stream : Nat → ClockCycle) : Prop where
  pcix : ∀ clock, (stream clock).edge.pcixcap = .one
  ready : ∀ clock, ∃ later, clock ≤ later ∧ (stream later).bus.irdyN ≠ .one

/-- The callbacks leave `recv32` of a region in place. -/
def Callbacks.KeepRecv32
    (callbacks : Callbacks User Handle)
    (bar : Fin 8) : Prop :=
  ∀ handle addr val ben device,
    (device.memTarget bar).recv32.isSome →
      ((callbacks.recv32 handle addr val ben device).memTarget bar).recv32.isSome

/-- A target at an edge of such a bus, with its callback in place. -/
structure EdgeTarget
    (bar : Fin 8)
    (pci : SimbusPci User Handle) : Prop where
  clock : pci.pciClk = .one
  pcix : pci.pcixcap = .one
  recv32 : (barOf pci bar).recv32.isSome

variable {bar : Fin 8}

theorem EdgeTarget.clocked
    (ready : MasterReady stream)
    (edgeTarget : EdgeTarget bar pci)
    (step : Nat) :
    EdgeTarget bar (pci.clocked (stream step)) where
  clock := clocked_pciClk pci _
  pcix := by
    rw [clocked_pcixcap]
    exact ready.pcix step
  recv32 := by
    rw [barOf, clocked_device]
    exact edgeTarget.recv32

/-- One clock. -/
theorem clockwise_posedge
    {post : Clocked.Assertion (SimbusPci User Handle) Unit}
    {step : Nat}
    (edgeTarget : pci.pciClk = .one)
    (holds : post () (step + 1) (pci.clocked (stream step))) :
    (clockwise User Handle stream).ok post step (pciNextPosedge.start pci) :=
  ⟨1, [pci.out], (), _, .posedge (stream step) edgeTarget, holds⟩

/-- The target waits until IRDY# is not 1 at the end of a clock. -/
theorem clockwise_untilIrdy
    (ready : MasterReady stream)
    (start : Nat) :
    (clockwise User Handle stream).Triple
      (fun step pci => start ≤ step ∧ EdgeTarget bar pci)
      pciNextPosedgeUntilIrdy
      fun _ step pci => start + 1 ≤ step ∧ EdgeTarget bar pci := by
  rintro step pci ⟨begun, edgeTarget⟩
  obtain ⟨last, later, isReady⟩ := ready.ready step
  -- The edge with IRDY# is not passed.
  let waiting (step : Nat) (pci : SimbusPci User Handle) : Prop :=
    start + 1 ≤ step ∧ EdgeTarget bar pci ∧ step ≤ last + 1 ∧
      (step = last + 1 → pci.seen.irdyN ≠ .one)
  have clock {step : Nat} {pci : SimbusPci User Handle}
      (begun : start ≤ step)
      (edgeTarget : EdgeTarget bar pci)
      (before : step ≤ last) :
      waiting (step + 1) (pci.clocked (stream step)) := by
    refine ⟨by omega, edgeTarget.clocked ready step, by omega, ?_⟩
    intro isLast
    obtain rfl : step = last := by omega
    rw [clocked_seen]
    exact isReady
  have waits : (clockwise User Handle stream).Triple waiting
      (Program.whileDo (fun pci => pci.seen.irdyN = .one) pciNextPosedge)
      fun _ step pci => start + 1 ≤ step ∧ EdgeTarget bar pci := by
    refine clockwise_loop (fun _ => waiting) (fun _ step => last + 1 - step) ?_ ()
    rintro _ step pci ⟨begun, edgeTarget, inside, ends⟩
    by_cases goesOn : pci.seen.irdyN = .one
    · have before : step ≤ last := by
        have notLast : step ≠ last + 1 := fun isLast => ends isLast goesOn
        omega
      simp only [Program.whileTurn, goesOn, decide_true, if_true]
      have turn : (clockwise User Handle stream).ok
          (fun _ step' pci' => step' = step + 1 ∧ waiting step' pci') step
          (pciNextPosedge.start pci) :=
        clockwise_posedge edgeTarget.clock ⟨rfl, clock (by omega) edgeTarget before⟩
      refine (clockwise User Handle stream).bind turn ?_
      rintro _ step' pci' ⟨rfl, still⟩
      refine (clockwise User Handle stream).finish ⟨by omega, ?_, still⟩
      omega
    · simp only [Program.whileTurn, goesOn, decide_false, Bool.false_eq_true,
        if_false]
      exact (clockwise User Handle stream).finish ⟨begun, edgeTarget⟩
  exact (clockwise User Handle stream).bind
    (clockwise_posedge edgeTarget.clock (clock begun edgeTarget later)) fun _ => waits

/-! ## The words of a burst -/

variable {callbacks : Callbacks User Handle}

theorem EdgeTarget.received
    (keeps : callbacks.KeepRecv32 bar)
    (edgeTarget : EdgeTarget bar pci)
    (handle : Handle)
    (addr : BitVec 64)
    (val ben : BitVec 32) :
    EdgeTarget bar
      { pci with device := callbacks.recv32 handle addr val ben pci.device } where
  clock := edgeTarget.clock
  pcix := edgeTarget.pcix
  recv32 := keeps handle addr val ben pci.device edgeTarget.recv32

/-- The callback takes a word at once. -/
theorem writeBurstReceive_finishes
    (keeps : callbacks.KeepRecv32 bar)
    (edgeTarget : EdgeTarget bar pci)
    (burst : WriteBurst)
    (addr : BitVec 64)
    (burstLen : Nat) :
    ∃ after, (writeBurstReceive callbacks bar burst addr burstLen).start pci =
        .finish () after ∧
      EdgeTarget bar after := by
  obtain ⟨handle, isHandle⟩ := Option.isSome_iff_exists.mp edgeTarget.recv32
  by_cases isSize : burst.wordSize = 4
  · simp only [writeBurstReceive, Program.start_bind, Program.start_getState,
      Behavior.finish_bind, isHandle, isSize, if_true, callRecv32,
      Program.start_modifyState]
    exact ⟨_, rfl, edgeTarget.received keeps handle _ _ _⟩
  · simp only [writeBurstReceive, Program.start_bind, Program.start_getState,
      Behavior.finish_bind, isHandle, isSize, if_false, callRecv32,
      Program.start_modifyState]
    generalize isLow : callbacks.recv32 handle _ _ _ pci.device = device
    have low : EdgeTarget bar { pci with device := device } := by
      rw [← isLow]
      exact edgeTarget.received keeps handle _ _ _
    obtain ⟨later, isLater⟩ := Option.isSome_iff_exists.mp low.recv32
    simp only [isLater, Program.start_modifyState]
    exact ⟨_, rfl, low.received keeps later _ _ _⟩

/-- A turn of the loop takes a word. -/
theorem clockwise_writeBurstWord
    (ready : MasterReady stream)
    (keeps : callbacks.KeepRecv32 bar)
    (burst : WriteBurst)
    (current : BitVec 64 × Nat)
    {step : Nat}
    (inside : current.2 < burst.wordCount)
    (edgeTarget : EdgeTarget bar pci) :
    (clockwise User Handle stream).ok
      (Sum.elim
        (fun next step' pci' => step < step' ∧
          burst.wordCount - next.2 < burst.wordCount - current.2 ∧
          next.2 < burst.wordCount ∧ EdgeTarget bar pci')
        fun _ _ pci' => EdgeTarget bar pci')
      step ((writeBurstWord callbacks bar burst current).start pci) := by
  obtain ⟨addr, burstLen⟩ := current
  refine (clockwise User Handle stream).bind
    (clockwise_untilIrdy ready step step pci ⟨Nat.le_refl _, edgeTarget⟩) ?_
  rintro _ step' pci' ⟨later, edgeTarget'⟩
  obtain ⟨after, received, atEdgeAfter⟩ :=
    writeBurstReceive_finishes keeps edgeTarget' burst addr burstLen
  have isPcix : pcixMode after = true := decide_eq_true atEdgeAfter.pcix
  simp only [Program.start_bind, received, Behavior.finish_bind,
    Program.start_getState, isPcix, true_and]
  split
  · exact (clockwise User Handle stream).finish atEdgeAfter
  · rename_i notLast
    split
    · simp only at inside
      refine (clockwise User Handle stream).finish ⟨later, ?_, ?_, atEdgeAfter⟩
      all_goals simp only; omega
    · exact (clockwise User Handle stream).finish atEdgeAfter

theorem clockwise_clock
    (ready : MasterReady stream) :
    (clockwise User Handle stream).Keeps (fun _ => EdgeTarget bar)
      pciNextPosedge :=
  fun step _ edgeTarget => clockwise_posedge edgeTarget.clock (edgeTarget.clocked ready step)

theorem clockwise_clocks
    (ready : MasterReady stream)
    (count : Nat) :
    (clockwise User Handle stream).Keeps (fun _ => EdgeTarget bar)
      (pciNextPosedges count) := by
  induction count with
  | zero =>
      exact .pure ()
  | succ count inductionHypothesis =>
      exact .bind (clockwise_clock ready) fun _ => inductionHypothesis

theorem clockwise_drive
    (change : BiSignals → BiSignals) :
    (clockwise User Handle stream).Keeps (fun _ => EdgeTarget bar)
      (drive change) :=
  .modifyState fun _ _ edgeTarget => ⟨edgeTarget.clock, edgeTarget.pcix, edgeTarget.recv32⟩

/-- The data phases of a burst come to their end. -/
theorem clockwise_writeData
    (ready : MasterReady stream)
    (keeps : callbacks.KeepRecv32 bar)
    (addr : BitVec 64)
    (burst : WriteBurst)
    (some_ : 0 < burst.wordCount) :
    (clockwise User Handle stream).Keeps (fun _ => EdgeTarget bar)
      (writeData callbacks bar addr burst) := by
  refine .bind (clockwise_drive _) fun _ => ?_
  refine .bind ?_ fun _ => ?_
  · refine .getState fun pci => ?_
    exact .ite (clockwise_clock ready) (.pure ())
  refine .bind (clockwise_drive _) fun _ => ?_
  have words : (clockwise User Handle stream).Triple
      (fun _ pci => (addr, 0).2 < burst.wordCount ∧ EdgeTarget bar pci)
      (Program.loop (writeBurstWord callbacks bar burst) (addr, 0))
      fun _ _ => EdgeTarget bar := by
    refine clockwise_loop (fun current _ pci =>
        current.2 < burst.wordCount ∧ EdgeTarget bar pci)
      (fun current _ => burst.wordCount - current.2) ?_ (addr, 0)
    rintro current step pci ⟨inside, edgeTarget⟩
    exact clockwise_writeBurstWord ready keeps burst current inside edgeTarget
  refine .bind (words.weaken (fun _ _ edgeTarget => ⟨some_, edgeTarget⟩)
    fun _ _ _ => id) fun _ => ?_
  refine .bind (clockwise_drive _) fun _ => ?_
  refine .bind (clockwise_clock ready) fun _ => ?_
  exact .modifyState fun _ _ edgeTarget =>
    ⟨edgeTarget.clock, edgeTarget.pcix, edgeTarget.recv32⟩

/-- A random number takes no clock. -/
theorem clockwise_genrand :
    (clockwise User Handle stream).Keeps (fun _ => EdgeTarget bar) genrand :=
  .getState fun _ => .bind
    (.modifyState fun _ _ edgeTarget => ⟨edgeTarget.clock, edgeTarget.pcix, edgeTarget.recv32⟩)
    fun _ => .pure _

end

end Simbus.Pci
