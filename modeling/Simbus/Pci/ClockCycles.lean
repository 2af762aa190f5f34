import Simbus.Clocked.Returns
import Simbus.Pci.SharedBus

/-!
# A client clock by clock

A clock cycle is the UNTIL messages from a rising edge to the next one.  A client
drives the same during a cycle and looks at the bus at its end, so a run over some
cycles is told by what the client drives in each of them.
-/

namespace Simbus.Pci

open FourValued Clocked

/-- The UNTIL messages after a rising edge up to the next one. -/
structure ClockCycle where
  high : List SendSignals
  low : List SendSignals
  edge : SendSignals
  isHigh : ∀ signals ∈ high, signals.pciClk = .one
  isLow : ∀ signals ∈ low, signals.pciClk = .zero
  falls : low ≠ []
  rises : edge.pciClk = .one

/-- A clock that starts low has no high phase. -/
theorem noSignals_high :
    ∀ signals ∈ ([] : List SendSignals), signals.pciClk = .one :=
  List.forall_mem_nil _

/-- The replies to a client. -/
def untilReplies (signals : List SendSignals) : List Reply :=
  signals.map .until

namespace ClockCycle

def signals (cycle : ClockCycle) : List SendSignals :=
  cycle.high ++ (cycle.low ++ [cycle.edge])

def replies (cycle : ClockCycle) : List Reply :=
  untilReplies cycle.signals

/-- What is on the bus at the edge. -/
def bus (cycle : ClockCycle) : BiSignals :=
  cycle.edge.bi

end ClockCycle

section

variable {User Handle Value Result : Type}

/-- A client after a cycle. -/
def SimbusPci.clocked
    (pci : SimbusPci User Handle)
    (cycle : ClockCycle) : SimbusPci User Handle :=
  calculateParity (pci.sampleAll cycle.signals)

/-- A client goes through some exchanges, in which it drives the same. -/
inductive Holds (out : BiSignals) :
    Behavior (SimbusPci User Handle) Reply Value → List Reply →
      Behavior (SimbusPci User Handle) Reply Value → Prop where
  | none
      {behavior : Behavior (SimbusPci User Handle) Reply Value} :
      Holds out behavior [] behavior
  | exchange
      {behavior after : Behavior (SimbusPci User Handle) Reply Value}
      {pci : SimbusPci User Handle}
      {reply : Reply}
      {replies : List Reply}
      (waits : behavior.run [] = .waiting pci)
      (drives : pci.out = out)
      (later : Holds out (behavior.resume reply) replies after) :
      Holds out behavior (reply :: replies) after

/-- A run over whole cycles, with what the client drives in each of them. -/
inductive ClockRun :
    Behavior (SimbusPci User Handle) Reply Value → List ClockCycle →
      List BiSignals → Value → SimbusPci User Handle → Prop where
  | done
      {behavior : Behavior (SimbusPci User Handle) Reply Value}
      {value : Value}
      {final : SimbusPci User Handle}
      (finished : behavior = .finish value final) :
      ClockRun behavior [] [] value final
  | clock
      {behavior after : Behavior (SimbusPci User Handle) Reply Value}
      {cycle : ClockCycle}
      {cycles : List ClockCycle}
      {out : BiSignals}
      {outs : List BiSignals}
      {value : Value}
      {final : SimbusPci User Handle}
      (holds : Holds out behavior cycle.replies after)
      (later : ClockRun after cycles outs value final) :
      ClockRun behavior (cycle :: cycles) (out :: outs) value final

variable {behavior after after' : Behavior (SimbusPci User Handle) Reply Value}
variable {out out' : BiSignals}
variable {replies replies' : List Reply}
variable {cycle : ClockCycle}
variable {cycles cyclesLater : List ClockCycle}
variable {outs outsLater : List BiSignals}
variable {value value' : Value}
variable {pci middle final final' : SimbusPci User Handle}

/-! ## Exchanges with the same drive -/

theorem Holds.bind
    (holds : Holds out behavior replies after)
    (next : Value → SimbusPci User Handle →
      Behavior (SimbusPci User Handle) Reply Result) :
    Holds out (behavior.bind next) replies (after.bind next) := by
  induction holds with
  | none =>
      exact .none
  | @exchange behavior after pci reply replies waits drives _
      inductionHypothesis =>
      have isAwait := Behavior.eq_await waits
      rw [isAwait, Behavior.await_bind]
      exact .exchange rfl drives inductionHypothesis

theorem Holds.unique
    (holds : Holds out behavior replies after)
    (holds' : Holds out' behavior replies after') :
    after' = after ∧ (replies ≠ [] → out' = out) := by
  induction holds with
  | none =>
      cases holds'
      exact ⟨rfl, fun some => (some rfl).elim⟩
  | exchange waits drives _ inductionHypothesis =>
      cases holds' with
      | exchange waits' drives' later' =>
          rw [waits, Outcome.waiting.injEq] at waits'
          subst waits'
          exact ⟨(inductionHypothesis later').1,
            fun _ => drives'.symm.trans drives⟩

theorem ClockCycle.replies_ne_nil (cycle : ClockCycle) : cycle.replies ≠ [] := by
  simp [replies, signals, untilReplies]

/-- A client that goes through a cycle waits at first. -/
theorem Holds.waits
    {cycle : ClockCycle}
    (holds : Holds out behavior cycle.replies after) :
    ∃ pci, behavior.run [] = .waiting pci := by
  cases split : cycle.replies with
  | nil =>
      exact (cycle.replies_ne_nil split).elim
  | cons reply replies =>
      rw [split] at holds
      cases holds with
      | exchange waits _ _ =>
          exact ⟨_, waits⟩

/-! ## Runs -/

theorem ClockRun.bind
    {next : Value → SimbusPci User Handle →
      Behavior (SimbusPci User Handle) Reply Result}
    {result : Result}
    (first : ClockRun behavior cycles outs value middle)
    (second : ClockRun (next value middle) cyclesLater outsLater result final) :
    ClockRun (behavior.bind next) (cycles ++ cyclesLater) (outs ++ outsLater)
      result final := by
  induction first with
  | done finished =>
      rw [finished, Behavior.finish_bind]
      exact second
  | clock holds _ inductionHypothesis =>
      exact .clock (holds.bind next) (inductionHypothesis second)

/-- A client that has failed does not end. -/
theorem ClockRun.not_fail
    {state : SimbusPci User Handle}
    (run : ClockRun
      (.fail state : Behavior (SimbusPci User Handle) Reply Value) cycles outs
      value final) :
    False := by
  cases run with
  | done finished =>
      exact Behavior.fail_ne_finish state value final finished
  | clock holds _ =>
      obtain ⟨_, waits⟩ := holds.waits
      cases waits

/-- A client that is done takes no more cycles. -/
theorem ClockRun.of_finish
    {early : Value}
    (run : ClockRun (.finish early pci) cycles outs value final) :
    cycles = [] ∧ outs = [] ∧ value = early ∧ final = pci := by
  cases run with
  | done finished =>
      obtain ⟨rfl, rfl⟩ := Behavior.finish_inj finished
      exact ⟨rfl, rfl, rfl, rfl⟩
  | clock holds _ =>
      obtain ⟨_, waits⟩ := holds.waits
      cases waits

theorem ClockRun.length
    (run : ClockRun behavior cycles outs value final) :
    outs.length = cycles.length := by
  induction run with
  | done _ =>
      rfl
  | clock _ _ inductionHypothesis =>
      rw [List.length_cons, List.length_cons, inductionHypothesis]

/-- A run is told by its cycles. -/
theorem ClockRun.unique
    (run : ClockRun behavior cycles outs value final)
    {outs' : List BiSignals}
    (run' : ClockRun behavior cycles outs' value' final') :
    outs' = outs ∧ value' = value ∧ final' = final := by
  induction run generalizing outs' with
  | done finished =>
      cases run' with
      | done finished' =>
          obtain ⟨rfl, rfl⟩ := Behavior.finish_inj (finished'.symm.trans finished)
          exact ⟨rfl, rfl, rfl⟩
  | @clock behavior after cycle cycles out outs value final holds later
      inductionHypothesis =>
      cases run' with
      | clock holds' later' =>
          obtain ⟨rfl, sameOut⟩ := holds.unique holds'
          obtain ⟨rfl, rfl, rfl⟩ := inductionHypothesis later'
          rw [sameOut cycle.replies_ne_nil]
          exact ⟨rfl, rfl, rfl⟩

/-- Nothing comes after the end of a run. -/
theorem ClockRun.of_prefix
    (run : ClockRun behavior cycles outs value final)
    {outs' : List BiSignals}
    (run' : ClockRun behavior (cycles ++ cyclesLater) outs' value' final') :
    cyclesLater = [] := by
  induction run generalizing outs' with
  | done finished =>
      cases run' with
      | done _ =>
          rfl
      | clock holds _ =>
          obtain ⟨_, waits⟩ := holds.waits
          rw [finished] at waits
          cases waits
  | clock holds _ inductionHypothesis =>
      cases run' with
      | clock holds' later' =>
          obtain ⟨rfl, _⟩ := holds.unique holds'
          exact inductionHypothesis later'

/-- What a run does after some of its cycles. -/
theorem ClockRun.later
    {next : Value → SimbusPci User Handle →
      Behavior (SimbusPci User Handle) Reply Result}
    {result : Result}
    {outs' : List BiSignals}
    (first : ClockRun behavior cycles outs value middle)
    (run : ClockRun (behavior.bind next) (cycles ++ cyclesLater) outs' result
      final) :
    ∃ outsLater, outs' = outs ++ outsLater ∧
      ClockRun (next value middle) cyclesLater outsLater result final := by
  induction first generalizing outs' with
  | done finished =>
      rw [finished, Behavior.finish_bind] at run
      exact ⟨outs', rfl, run⟩
  | @clock behavior after cycle cycles out outs value middle holds _
      inductionHypothesis =>
      cases run with
      | clock holds' later' =>
          obtain ⟨rfl, sameOut⟩ := (holds.bind next).unique holds'
          obtain ⟨outsLater, rfl, later⟩ := inductionHypothesis later'
          rw [sameOut cycle.replies_ne_nil]
          exact ⟨outsLater, rfl, later⟩

/-! ## Waiting for an edge -/

section PassesEdge

variable {high low done : SimbusPci User Handle →
  Behavior (SimbusPci User Handle) Reply Value}

theorem Holds.await
    {next : Reply → Behavior (SimbusPci User Handle) Reply Value}
    {reply : Reply}
    (waits : behavior = .await pci next)
    (drives : pci.out = out)
    (later : Holds out (next reply) replies after) :
    Holds out behavior (reply :: replies) after := by
  refine .exchange ?_ drives ?_
  · rw [waits]
    rfl
  · rw [waits, Behavior.resume_await]
    exact later

theorem PassesEdge.holdsLow
    (passes : PassesEdge high low done)
    {signals : List SendSignals}
    (edge : SendSignals)
    (isLow : ∀ sent ∈ signals, sent.pciClk = .zero)
    (rises : edge.pciClk = .one)
    (isZero : pci.pciClk = .zero) :
    Holds pci.out (low pci) (untilReplies (signals ++ [edge]))
      (done (pci.sampleAll (signals ++ [edge]))) := by
  induction signals generalizing pci with
  | nil =>
      obtain ⟨next, waits, _, toDone⟩ := passes.atZero pci isZero
      refine .await waits rfl ?_
      rw [toDone edge rises]
      exact .none
  | cons sent signals inductionHypothesis =>
      obtain ⟨first, others⟩ := List.forall_mem_cons.mp isLow
      obtain ⟨next, waits, stays, _⟩ := passes.atZero pci isZero
      refine .await waits rfl ?_
      have stillLow : (pci.sample sent).pciClk = .zero := first
      rw [stays sent first]
      exact inductionHypothesis others stillLow

/-- From one edge to the next a client drives the same. -/
theorem PassesEdge.holds
    (passes : PassesEdge high low done)
    (cycle : ClockCycle)
    (atEdge : pci.pciClk = .one) :
    Holds pci.out (high pci) cycle.replies
      (done (pci.sampleAll cycle.signals)) := by
  obtain ⟨highs, lows, edge, isHigh, isLow, falls, rises⟩ := cycle
  change Holds pci.out (high pci) (untilReplies (highs ++ (lows ++ [edge])))
    (done (pci.sampleAll (highs ++ (lows ++ [edge]))))
  induction highs generalizing pci with
  | nil =>
      cases lows with
      | nil =>
          exact (falls rfl).elim
      | cons sent lows =>
          obtain ⟨first, others⟩ := List.forall_mem_cons.mp isLow
          obtain ⟨next, waits, _, fell⟩ := passes.atOne pci atEdge
          refine .await waits rfl ?_
          have nowLow : (pci.sample sent).pciClk = .zero := first
          rw [fell sent first]
          exact passes.holdsLow edge others rises nowLow
  | cons sent highs inductionHypothesis =>
      obtain ⟨first, others⟩ := List.forall_mem_cons.mp isHigh
      obtain ⟨next, waits, stays, _⟩ := passes.atOne pci atEdge
      refine .await waits rfl ?_
      have stillHigh : (pci.sample sent).pciClk = .one := first
      rw [stays sent first]
      exact inductionHypothesis stillHigh others

end PassesEdge

theorem posedge_holds
    (cycle : ClockCycle)
    (atEdge : pci.pciClk = .one) :
    Holds pci.out (pciNextPosedge.start pci) cycle.replies
      (.finish () (pci.clocked cycle)) := by
  have passes := pciNextPosedge_passesEdge
    (fun state : SimbusPci User Handle => Behavior.finish () state)
  have holds := passes.holds cycle atEdge
  have same : ((pciNextPosedge.start pci).bind fun _ state =>
      Behavior.finish () state) = pciNextPosedge.start pci :=
    Behavior.bind_finish _
  rw [same] at holds
  exact holds

/-- A client waits for an edge. -/
theorem posedge_waits (atEdge : pci.pciClk = .one) :
    ∃ next, (pciNextPosedge : Call User Handle Unit).start pci =
      .await pci next := by
  obtain ⟨next, waits, _⟩ := (pciNextPosedge_passesEdge
    (fun state : SimbusPci User Handle => Behavior.finish () state)).atOne pci
      atEdge
  have same : ((pciNextPosedge.start pci).bind fun _ state =>
      Behavior.finish () state) = pciNextPosedge.start pci :=
    Behavior.bind_finish _
  exact ⟨next, same.symm.trans waits⟩

/-- One clock. -/
theorem ClockRun.posedge
    (cycle : ClockCycle)
    (atEdge : pci.pciClk = .one) :
    ClockRun (pciNextPosedge.start pci) [cycle] [pci.out] ()
      (pci.clocked cycle) :=
  .clock (posedge_holds cycle atEdge) (.done rfl)

/-- A clock and the run after it. -/
theorem ClockRun.posedge_bind
    {next : Unit → SimbusPci User Handle →
      Behavior (SimbusPci User Handle) Reply Value}
    (atEdge : pci.pciClk = .one)
    (later : ClockRun (next () (pci.clocked cycle)) cycles outs value final) :
    ClockRun ((pciNextPosedge.start pci).bind next) (cycle :: cycles)
      (pci.out :: outs) value final :=
  (ClockRun.posedge cycle atEdge).bind later

/-- A run that begins with a clock. -/
theorem ClockRun.of_posedge
    {next : Unit → SimbusPci User Handle →
      Behavior (SimbusPci User Handle) Reply Value}
    (atEdge : pci.pciClk = .one)
    (run : ClockRun ((pciNextPosedge.start pci).bind next) cycles outs value
      final) :
    ∃ cycle cyclesLater outsLater, cycles = cycle :: cyclesLater ∧
      outs = pci.out :: outsLater ∧
      ClockRun (next () (pci.clocked cycle)) cyclesLater outsLater value
        final := by
  cases run with
  | done finished =>
      obtain ⟨_, waits, _⟩ := (pciNextPosedge_passesEdge
        (next () : SimbusPci User Handle → _)).atOne pci atEdge
      rw [show ((pciNextPosedge.start pci).bind next) = _ from waits] at finished
      have now := congrArg (fun behavior => behavior.run []) finished
      cases now
  | @clock _ after cycle cycles out outs value final holds later =>
      obtain ⟨rfl, sameOut⟩ := ((posedge_holds cycle atEdge).bind next).unique
        holds
      rw [sameOut cycle.replies_ne_nil]
      exact ⟨cycle, cycles, outs, rfl, rfl, later⟩

/-- A run of one clock. -/
theorem ClockRun.of_posedge_last
    {value : Unit}
    (run : ClockRun (pciNextPosedge.start pci) cycles outs value final)
    (atEdge : pci.pciClk = .one) :
    ∃ cycle, cycles = [cycle] ∧ outs = [pci.out] ∧ final = pci.clocked cycle := by
  rw [← Behavior.bind_finish (pciNextPosedge.start pci)] at run
  obtain ⟨cycle, cycles, outs, rfl, rfl, later⟩ := run.of_posedge atEdge
  obtain ⟨rfl, rfl, _, rfl⟩ := later.of_finish
  exact ⟨cycle, rfl, rfl, rfl⟩

/-! ## A client after a clock -/

section Clocked

variable (pci : SimbusPci User Handle)
variable (cycle : ClockCycle)

theorem sampleAll_cycle :
    ∃ before : SimbusPci User Handle,
      pci.sampleAll cycle.signals = before.sample cycle.edge := by
  refine ⟨pci.sampleAll (cycle.high ++ cycle.low), ?_⟩
  rw [ClockCycle.signals, ← List.append_assoc, sampleAll_append]
  rfl

@[simp] theorem clocked_seen : (pci.clocked cycle).seen = cycle.bus := by
  obtain ⟨before, sampled⟩ := sampleAll_cycle pci cycle
  rw [SimbusPci.clocked, sampled]
  rfl

@[simp] theorem clocked_pciClk : (pci.clocked cycle).pciClk = .one := by
  obtain ⟨before, sampled⟩ := sampleAll_cycle pci cycle
  rw [SimbusPci.clocked, sampled]
  exact cycle.rises

@[simp] theorem clocked_pcixcap :
    (pci.clocked cycle).pcixcap = cycle.edge.pcixcap := by
  obtain ⟨before, sampled⟩ := sampleAll_cycle pci cycle
  rw [SimbusPci.clocked, sampled]
  rfl

@[simp] theorem clocked_pciGntN :
    (pci.clocked cycle).pciGntN = cycle.edge.gntN := by
  obtain ⟨before, sampled⟩ := sampleAll_cycle pci cycle
  rw [SimbusPci.clocked, sampled]
  rfl

@[simp] theorem clocked_device : (pci.clocked cycle).device = pci.device :=
  sampleAll_device

/-- A clock changes only the parity of what is driven. -/
theorem clocked_out :
    ∃ par par64, (pci.clocked cycle).out =
      { pci.out with par := par, par64 := par64 } := by
  have same : (pci.sampleAll cycle.signals).out = pci.out := sampleAll_out
  rw [← same]
  exact ⟨_, _, rfl⟩

@[simp] theorem clocked_frameN :
    (pci.clocked cycle).out.frameN = pci.out.frameN := by
  obtain ⟨_, _, same⟩ := clocked_out pci cycle
  rw [same]

@[simp] theorem clocked_req64N :
    (pci.clocked cycle).out.req64N = pci.out.req64N := by
  obtain ⟨_, _, same⟩ := clocked_out pci cycle
  rw [same]

@[simp] theorem clocked_irdyN :
    (pci.clocked cycle).out.irdyN = pci.out.irdyN := by
  obtain ⟨_, _, same⟩ := clocked_out pci cycle
  rw [same]

@[simp] theorem clocked_cBe :
    (pci.clocked cycle).out.cBe = pci.out.cBe := by
  obtain ⟨_, _, same⟩ := clocked_out pci cycle
  rw [same]

@[simp] theorem clocked_ad :
    (pci.clocked cycle).out.ad = pci.out.ad := by
  obtain ⟨_, _, same⟩ := clocked_out pci cycle
  rw [same]

end Clocked

/-! ## Waiting for a condition -/

/-- A client after some cycles. -/
def SimbusPci.clockedAll
    (pci : SimbusPci User Handle)
    (cycles : List ClockCycle) : SimbusPci User Handle :=
  cycles.foldl SimbusPci.clocked pci

/-- These outputs differ in their parity only. -/
def SameDrive (out out' : BiSignals) : Prop :=
  ∃ par par64, out' = { out with par := par, par64 := par64 }

theorem SameDrive.refl (out : BiSignals) : SameDrive out out :=
  ⟨out.par, out.par64, rfl⟩

theorem SameDrive.trans
    {out'' : BiSignals}
    (first : SameDrive out out')
    (second : SameDrive out' out'') :
    SameDrive out out'' := by
  obtain ⟨_, _, rfl⟩ := first
  obtain ⟨par, par64, rfl⟩ := second
  exact ⟨par, par64, rfl⟩

theorem clockedAll_sameDrive
    (pci : SimbusPci User Handle)
    (cycles : List ClockCycle) :
    SameDrive pci.out (pci.clockedAll cycles).out := by
  induction cycles generalizing pci with
  | nil =>
      exact .refl _
  | cons cycle cycles inductionHypothesis =>
      exact .trans (clocked_out pci cycle) (inductionHypothesis _)

@[simp] theorem clockedAll_device
    (pci : SimbusPci User Handle)
    (cycles : List ClockCycle) :
    (pci.clockedAll cycles).device = pci.device := by
  induction cycles generalizing pci with
  | nil =>
      rfl
  | cons cycle cycles inductionHypothesis =>
      exact (inductionHypothesis (pci.clocked cycle)).trans
        (clocked_device pci cycle)

theorem clockedAll_pciClk
    (atEdge : pci.pciClk = .one)
    (cycles : List ClockCycle) :
    (pci.clockedAll cycles).pciClk = .one := by
  induction cycles generalizing pci with
  | nil =>
      exact atEdge
  | cons cycle cycles inductionHypothesis =>
      exact inductionHypothesis (clocked_pciClk pci cycle)

theorem clockedAll_append
    (pci : SimbusPci User Handle)
    (cycles later : List ClockCycle) :
    pci.clockedAll (cycles ++ later) = (pci.clockedAll cycles).clockedAll later :=
  List.foldl_append

/--
A client waits over these cycles: at their ends it goes on with the loop, and at
the end of the last one it is done.
-/
inductive WaitsWhile (condition : SimbusPci User Handle → Bool) :
    SimbusPci User Handle → List ClockCycle → Prop where
  | done
      {pci : SimbusPci User Handle}
      (ends : condition pci = false) :
      WaitsWhile condition pci []
  | clock
      {pci : SimbusPci User Handle}
      {cycle : ClockCycle}
      {cycles : List ClockCycle}
      (goesOn : condition pci = true)
      (later : WaitsWhile condition (pci.clocked cycle) cycles) :
      WaitsWhile condition pci (cycle :: cycles)

section While

variable {condition : SimbusPci User Handle → Bool}
variable {next : Unit → SimbusPci User Handle →
  Behavior (SimbusPci User Handle) Reply Value}

theorem whileDo_posedge
    (goesOn : condition pci = true)
    (atEdge : pci.pciClk = .one) :
    (Program.whileDo condition pciNextPosedge).start pci =
      (pciNextPosedge.start pci).bind fun _ =>
        (Program.whileDo condition pciNextPosedge).start := by
  refine Program.start_whileDo_true goesOn fun final rest done => ?_
  obtain ⟨next, waits⟩ := posedge_waits atEdge
  rw [waits] at done
  cases done

/-- A run that begins with a wait. -/
theorem ClockRun.of_whileDo
    (atEdge : pci.pciClk = .one)
    (run : ClockRun
      (((Program.whileDo condition pciNextPosedge).start pci).bind next)
      cycles outs value final) :
    ∃ waiting cyclesLater outsWaiting outsLater,
      cycles = waiting ++ cyclesLater ∧ outs = outsWaiting ++ outsLater ∧
      WaitsWhile condition pci waiting ∧
      outsWaiting.length = waiting.length ∧
      (∀ out ∈ outsWaiting, SameDrive pci.out out) ∧
      ClockRun (next () (pci.clockedAll waiting)) cyclesLater outsLater value
        final := by
  induction cycles generalizing pci outs with
  | nil =>
      cases ends : condition pci with
      | false =>
          rw [Program.start_whileDo_false ends, Behavior.finish_bind] at run
          exact ⟨[], [], [], outs, rfl, rfl, .done ends, rfl,
            List.forall_mem_nil _, run⟩
      | true =>
          rw [whileDo_posedge ends atEdge, Behavior.bind_assoc] at run
          obtain ⟨_, _, _, impossible, _⟩ := run.of_posedge atEdge
          cases impossible
  | cons cycle cycles inductionHypothesis =>
      cases ends : condition pci with
      | false =>
          rw [Program.start_whileDo_false ends, Behavior.finish_bind] at run
          exact ⟨[], _, [], outs, rfl, rfl, .done ends, rfl,
            List.forall_mem_nil _, run⟩
      | true =>
          rw [whileDo_posedge ends atEdge, Behavior.bind_assoc] at run
          obtain ⟨first, _, outs, same, rfl, later⟩ := run.of_posedge atEdge
          obtain ⟨rfl, rfl⟩ := List.cons_eq_cons.mp same
          obtain ⟨waiting, cyclesLater, outsWaiting, outsLater, rfl, rfl, waits,
            sameLength, sameOut, rest⟩ :=
            inductionHypothesis (clocked_pciClk pci cycle) later
          refine ⟨cycle :: waiting, cyclesLater, pci.out :: outsWaiting,
            outsLater, rfl, rfl, .clock ends waits, congrArg (· + 1) sameLength,
            ?_, rest⟩
          refine List.forall_mem_cons.mpr ⟨.refl _, fun out member => ?_⟩
          exact .trans (clocked_out pci cycle) (sameOut out member)

/-- The edges at which a client looks at the bus while it waits. -/
theorem WaitsWhile.edges
    (test : BiSignals → Bool)
    {waiting : List ClockCycle}
    (waits : WaitsWhile (fun pci : SimbusPci User Handle => test pci.seen) pci
      waiting)
    (isSeen : pci.seen = cycle.bus) :
    ∀ idx ≤ waiting.length, ∃ edge, (cycle :: waiting)[idx]? = some edge ∧
      (test edge.bus = false ↔ idx = waiting.length) := by
  induction waits generalizing cycle with
  | done ends =>
      intro idx inside
      rw [List.length_nil, Nat.le_zero] at inside
      subst inside
      rw [isSeen] at ends
      exact ⟨cycle, rfl, fun _ => rfl, fun _ => ends⟩
  | @clock pci next waiting goesOn _ inductionHypothesis =>
      intro idx inside
      cases idx with
      | zero =>
          rw [isSeen] at goesOn
          refine ⟨cycle, rfl, fun ends => ?_, nofun⟩
          rw [goesOn] at ends
          cases ends
      | succ idx =>
          obtain ⟨edge, isEdge, last⟩ := inductionHypothesis
            (clocked_seen pci next) idx (Nat.le_of_succ_le_succ inside)
          refine ⟨edge, isEdge, last.trans ?_⟩
          rw [List.length_cons, Nat.succ_inj]

/-- A wait, and the run after it. -/
theorem ClockRun.whileDo_bind
    {waiting : List ClockCycle}
    (waits : WaitsWhile condition pci waiting)
    (atEdge : pci.pciClk = .one)
    (later : ClockRun (next () (pci.clockedAll waiting)) cycles outs value
      final) :
    ∃ outsWaiting, outsWaiting.length = waiting.length ∧
      (∀ out ∈ outsWaiting, SameDrive pci.out out) ∧
      ClockRun
        (((Program.whileDo condition pciNextPosedge).start pci).bind next)
        (waiting ++ cycles) (outsWaiting ++ outs) value final := by
  induction waits with
  | done ends =>
      rw [Program.start_whileDo_false ends, Behavior.finish_bind]
      exact ⟨[], rfl, List.forall_mem_nil _, later⟩
  | @clock pci cycle waiting goesOn _ inductionHypothesis =>
      obtain ⟨outsWaiting, sameLength, sameOut, rest⟩ :=
        inductionHypothesis (clocked_pciClk pci cycle) later
      rw [whileDo_posedge goesOn atEdge, Behavior.bind_assoc]
      refine ⟨pci.out :: outsWaiting, congrArg (· + 1) sameLength, ?_,
        rest.posedge_bind atEdge⟩
      refine List.forall_mem_cons.mpr ⟨.refl _, fun out member => ?_⟩
      exact .trans (clocked_out pci cycle) (sameOut out member)

end While

/-! ## Runs of calls -/

/-- A client after a change of its outputs. -/
def SimbusPci.driving
    (pci : SimbusPci User Handle)
    (change : BiSignals → BiSignals) : SimbusPci User Handle :=
  { pci with out := change pci.out }

section Calls

variable {next : Unit → Call User Handle Value}

theorem ClockRun.of_modifyState
    {change : SimbusPci User Handle → SimbusPci User Handle}
    (run : ClockRun ((Program.modifyState change >>= next).start pci) cycles outs
      value final) :
    ClockRun ((next ()).start (change pci)) cycles outs value final := by
  rw [Program.start_bind, Program.start_modifyState, Behavior.finish_bind] at run
  exact run

theorem ClockRun.of_drive
    {change : BiSignals → BiSignals}
    (run : ClockRun ((drive change >>= next).start pci) cycles outs value
      final) :
    ClockRun ((next ()).start (pci.driving change)) cycles outs value final :=
  run.of_modifyState

theorem ClockRun.of_getState
    {next : SimbusPci User Handle → Call User Handle Value}
    (run : ClockRun ((Program.getState >>= next).start pci) cycles outs value
      final) :
    ClockRun ((next pci).start pci) cycles outs value final := by
  rw [Program.start_bind, Program.start_getState, Behavior.finish_bind] at run
  exact run

/-- A call that begins with a clock. -/
theorem ClockRun.of_clock
    (run : ClockRun ((pciNextPosedge >>= next).start pci) cycles outs value
      final)
    (atEdge : pci.pciClk = .one) :
    ∃ cycle cyclesLater outsLater, cycles = cycle :: cyclesLater ∧
      outs = pci.out :: outsLater ∧
      ClockRun ((next ()).start (pci.clocked cycle)) cyclesLater outsLater value
        final := by
  rw [Program.start_bind] at run
  exact run.of_posedge atEdge

/-- A call that begins with a wait. -/
theorem ClockRun.of_wait
    {condition : SimbusPci User Handle → Bool}
    (run : ClockRun
      ((Program.whileDo condition pciNextPosedge >>= next).start pci) cycles
      outs value final)
    (atEdge : pci.pciClk = .one) :
    ∃ waiting cyclesLater outsWaiting outsLater,
      cycles = waiting ++ cyclesLater ∧ outs = outsWaiting ++ outsLater ∧
      WaitsWhile condition pci waiting ∧
      outsWaiting.length = waiting.length ∧
      (∀ out ∈ outsWaiting, SameDrive pci.out out) ∧
      ClockRun ((next ()).start (pci.clockedAll waiting)) cyclesLater outsLater
        value final := by
  rw [Program.start_bind] at run
  exact run.of_whileDo atEdge

end Calls

/-! ## Calls over whole cycles -/

/-- A call is done after these cycles, with this result. -/
def EndsAfter
    (call : Call User Handle Value)
    (pci : SimbusPci User Handle)
    (cycles : List ClockCycle)
    (post : Value → SimbusPci User Handle → Prop) : Prop :=
  ∃ outs value final, ClockRun (call.start pci) cycles outs value final ∧
    post value final

section EndsAfter

variable {next : Unit → Call User Handle Value}
variable {post : Value → SimbusPci User Handle → Prop}

theorem EndsAfter.bind
    {call : Call User Handle Result}
    {next : Result → Call User Handle Value}
    {middle : Result → SimbusPci User Handle → Prop}
    (first : EndsAfter call pci cycles middle)
    (later : ∀ result state, middle result state →
      EndsAfter (next result) state cyclesLater post) :
    EndsAfter (call >>= next) pci (cycles ++ cyclesLater) post := by
  obtain ⟨outs, result, state, first, reached⟩ := first
  obtain ⟨outsLater, value, final, later, done⟩ := later result state reached
  exact ⟨outs ++ outsLater, value, final, first.bind later, done⟩

/-- What follows a call may take no time. -/
theorem EndsAfter.bindDone
    {call : Call User Handle Result}
    {next : Result → Call User Handle Value}
    {middle : Result → SimbusPci User Handle → Prop}
    (first : EndsAfter call pci cycles middle)
    (later : ∀ result state, middle result state →
      EndsAfter (next result) state [] post) :
    EndsAfter (call >>= next) pci cycles post := by
  rw [← List.append_nil cycles]
  exact first.bind later

theorem EndsAfter.pure
    (done : post value pci) :
    EndsAfter (Pure.pure value : Call User Handle Value) pci [] post :=
  ⟨[], value, pci, .done rfl, done⟩

theorem EndsAfter.modify
    {change : SimbusPci User Handle → SimbusPci User Handle}
    (later : EndsAfter (next ()) (change pci) cycles post) :
    EndsAfter (Program.modifyState change >>= next) pci cycles post := by
  obtain ⟨outs, value, final, later, done⟩ := later
  refine ⟨outs, value, final, ?_, done⟩
  rw [Program.start_bind, Program.start_modifyState, Behavior.finish_bind]
  exact later

theorem EndsAfter.drive
    {change : BiSignals → BiSignals}
    (later : EndsAfter (next ()) (pci.driving change) cycles post) :
    EndsAfter (drive change >>= next) pci cycles post :=
  EndsAfter.modify later

theorem EndsAfter.getState
    {next : SimbusPci User Handle → Call User Handle Value}
    (later : EndsAfter (next pci) pci cycles post) :
    EndsAfter (Program.getState >>= next) pci cycles post := by
  obtain ⟨outs, value, final, later, done⟩ := later
  refine ⟨outs, value, final, ?_, done⟩
  rw [Program.start_bind, Program.start_getState, Behavior.finish_bind]
  exact later

theorem EndsAfter.clock
    (cycle : ClockCycle)
    (atEdge : pci.pciClk = .one)
    (later : EndsAfter (next ()) (pci.clocked cycle) cycles post) :
    EndsAfter (pciNextPosedge >>= next) pci (cycle :: cycles) post := by
  obtain ⟨outs, value, final, later, done⟩ := later
  refine ⟨pci.out :: outs, value, final, ?_, done⟩
  rw [Program.start_bind]
  exact later.posedge_bind atEdge

theorem EndsAfter.lastClock
    {post : Unit → SimbusPci User Handle → Prop}
    (cycle : ClockCycle)
    (atEdge : pci.pciClk = .one)
    (done : post () (pci.clocked cycle)) :
    EndsAfter pciNextPosedge pci [cycle] post :=
  ⟨_, _, _, .posedge cycle atEdge, done⟩

theorem EndsAfter.wait
    {condition : SimbusPci User Handle → Bool}
    {waiting : List ClockCycle}
    (waits : WaitsWhile condition pci waiting)
    (atEdge : pci.pciClk = .one)
    (later : EndsAfter (next ()) (pci.clockedAll waiting) cycles post) :
    EndsAfter (Program.whileDo condition pciNextPosedge >>= next) pci
      (waiting ++ cycles) post := by
  obtain ⟨outs, value, final, later, done⟩ := later
  obtain ⟨outsWaiting, _, _, run⟩ :=
    @ClockRun.whileDo_bind _ _ _ cycles outs value pci final condition
      (fun value => (next value).start) waiting waits atEdge later
  exact ⟨outsWaiting ++ outs, value, final, run, done⟩

theorem EndsAfter.of_run
    {call : Call User Handle Value}
    (run : ClockRun (call.start pci) cycles outs value final) :
    EndsAfter call pci cycles fun result state =>
      result = value ∧ state = final :=
  ⟨outs, value, final, run, rfl, rfl⟩

theorem EndsAfter.mono
    {call : Call User Handle Value}
    {weaker : Value → SimbusPci User Handle → Prop}
    (ends : EndsAfter call pci cycles post)
    (implies : ∀ value state, post value state → weaker value state) :
    EndsAfter call pci cycles weaker := by
  obtain ⟨outs, value, final, run, done⟩ := ends
  exact ⟨outs, value, final, run, implies value final done⟩

/-- Where a call ends is where its run has ended. -/
theorem EndsAfter.reached
    {call : Call User Handle Value}
    (ends : EndsAfter call pci cycles post)
    (run : ClockRun (call.start pci) cycles outs value final) :
    post value final := by
  obtain ⟨_, _, _, ended, done⟩ := ends
  obtain ⟨-, rfl, rfl⟩ := ended.unique run
  exact done

/-- A call ends only once on the cycles of a clock. -/
theorem EndsAfter.unique
    {call : Call User Handle Value}
    {post' : Value → SimbusPci User Handle → Prop}
    {tail : List ClockCycle}
    {count count' : Nat}
    (ends : EndsAfter call pci (cycles ++ tail.take count) post)
    (ends' : EndsAfter call pci (cycles ++ tail.take count') post') :
    EndsAfter call pci (cycles ++ tail.take count) fun value state =>
      post value state ∧ post' value state := by
  have shorter {count count' : Nat} (le : count ≤ count') :
      ∃ rest, tail.take count' = tail.take count ++ rest := by
    obtain ⟨rest, split⟩ := List.take_prefix_take_left (l := tail) le
    exact ⟨rest, split.symm⟩
  obtain ⟨outs, value, final, run, done⟩ := ends
  obtain ⟨outs', value', final', run', done'⟩ := ends'
  rcases Nat.le_total count count' with le | le
  · obtain ⟨rest, split⟩ := shorter le
    rw [split, ← List.append_assoc] at run'
    obtain rfl := run.of_prefix run'
    rw [List.append_nil] at run'
    obtain ⟨rfl, rfl, rfl⟩ := run.unique run'
    exact ⟨outs', value', final', run, done, done'⟩
  · obtain ⟨rest, split⟩ := shorter le
    rw [split, ← List.append_assoc] at run
    obtain rfl := run'.of_prefix run
    rw [List.append_nil] at run
    obtain ⟨rfl, rfl, rfl⟩ := run'.unique run
    refine ⟨outs, value, final, ?_, done, done'⟩
    rw [split, List.append_nil]
    exact run

/-- Over cycles a client waits at first. -/
theorem ClockRun.waits
    (some : cycles ≠ [])
    (run : ClockRun behavior cycles outs value final) :
    ∃ state, behavior.run [] = .waiting state := by
  cases run with
  | done _ =>
      exact (some rfl).elim
  | clock holds _ =>
      exact holds.waits

section Loop

variable {Local : Type}
variable {body : Local → Call User Handle (Local ⊕ Value)}
variable {current : Local}

theorem start_loop_clocked
    {result : Local ⊕ Value}
    (some : cycles ≠ [])
    (run : ClockRun ((body current).start pci) cycles outs result final) :
    (Program.loop body current).start pci =
      ((body current).start pci).bind fun outcome =>
        (Program.loopNext body outcome).start := by
  obtain ⟨state, waits⟩ := run.waits some
  refine Program.start_loop fun next before rest => ?_
  rw [waits]
  nofun

/-- A loop whose turn returns, perhaps at once. -/
theorem start_loop_returned
    (run : ClockRun ((body current).start pci) cycles outs (.inr value) final) :
    (Program.loop body current).start pci =
      ((body current).start pci).bind fun outcome =>
        (Program.loopNext body outcome).start := by
  cases cycles with
  | nil =>
      cases run with
      | done finished =>
          refine Program.start_loop fun next before rest => ?_
          rw [finished, Behavior.run_finish]
          nofun
  | cons cycle cycles =>
      exact start_loop_clocked (List.cons_ne_nil cycle cycles) run

/-- The last turn of a loop. -/
theorem EndsAfter.loopDone
    {post : Value → SimbusPci User Handle → Prop}
    (turn : EndsAfter (body current) pci cycles fun outcome state =>
      ∃ value, outcome = .inr value ∧ post value state) :
    EndsAfter (Program.loop body current) pci cycles post := by
  obtain ⟨outs, _, final, run, value, rfl, done⟩ := turn
  refine ⟨outs, value, final, ?_, done⟩
  have ends : ClockRun ((Program.loopNext body (.inr value)).start final) [] []
      value final := .done rfl
  have whole : ClockRun
      (((body current).start pci).bind fun outcome =>
        (Program.loopNext body outcome).start)
      (cycles ++ []) (outs ++ []) value final := run.bind ends
  rw [List.append_nil, List.append_nil] at whole
  rw [start_loop_returned run]
  exact whole

/-- A turn of a loop and the rest of it. -/
theorem EndsAfter.loopTurn
    {next : Local}
    {post : Value → SimbusPci User Handle → Prop}
    (turn : ClockRun ((body current).start pci) cycles outs (.inl next) middle)
    (some : cycles ≠ [])
    (later : EndsAfter (Program.loop body next) middle cyclesLater post) :
    EndsAfter (Program.loop body current) pci (cycles ++ cyclesLater) post := by
  obtain ⟨outsLater, value, final, later, done⟩ := later
  refine ⟨outs ++ outsLater, value, final, ?_, done⟩
  rw [start_loop_clocked some turn]
  exact turn.bind later

end Loop

end EndsAfter

/-! ## Calls that wait on -/

theorem Holds.run
    (holds : Holds out behavior replies after)
    (inputs : List Reply) :
    behavior.run (replies ++ inputs) = after.run inputs := by
  induction holds with
  | none =>
      rfl
  | exchange waits _ _ inductionHypothesis =>
      rw [Behavior.eq_await waits]
      exact inductionHypothesis

/-- A run over cycles is one over their replies. -/
theorem ClockRun.run
    (run : ClockRun behavior cycles outs value final)
    (inputs : List Reply) :
    behavior.run (cycles.flatMap ClockCycle.replies ++ inputs) =
      .finished value final inputs := by
  induction run with
  | done finished =>
      rw [finished]
      rfl
  | clock holds _ inductionHypothesis =>
      rw [List.flatMap_cons, List.append_assoc, holds.run]
      exact inductionHypothesis

/-- After some cycles a call is still waiting. -/
def StillWaits
    (call : Call User Handle Value)
    (pci : SimbusPci User Handle)
    (cycles : List ClockCycle) : Prop :=
  ∃ state, (call.start pci).run (cycles.flatMap ClockCycle.replies) =
    .waiting state

section StillWaits

/-- A call that waits has not returned. -/
theorem StillWaits.not_run
    {call : Call User Handle Value}
    (waits : StillWaits call pci cycles) :
    ¬ ClockRun (call.start pci) cycles outs value final := by
  intro run
  obtain ⟨state, waiting⟩ := waits
  have finished := run.run []
  rw [List.append_nil, waiting] at finished
  cases finished

theorem StillWaits.bind
    {call : Call User Handle Result}
    (waits : StillWaits call pci cycles)
    (next : Result → Call User Handle Value) :
    StillWaits (call >>= next) pci cycles := by
  obtain ⟨state, waiting⟩ := waits
  refine ⟨state, ?_⟩
  rw [Program.start_bind]
  simp only [Behavior.bind, waiting]

/-- What follows a call that has ended waits. -/
theorem EndsAfter.waits
    {call : Call User Handle Result}
    {next : Result → Call User Handle Value}
    {middle : Result → SimbusPci User Handle → Prop}
    (first : EndsAfter call pci cycles middle)
    (later : ∀ result state, middle result state →
      StillWaits (next result) state cyclesLater) :
    StillWaits (call >>= next) pci (cycles ++ cyclesLater) := by
  obtain ⟨outs, result, state, run, reached⟩ := first
  obtain ⟨final, waiting⟩ := later result state reached
  refine ⟨final, ?_⟩
  rw [Program.start_bind, List.flatMap_append]
  simp only [Behavior.bind, run.run]
  exact waiting

variable {next : Unit → Call User Handle Value}

theorem StillWaits.drive
    {change : BiSignals → BiSignals}
    (later : StillWaits (next ()) (pci.driving change) cycles) :
    StillWaits (drive change >>= next) pci cycles := by
  obtain ⟨final, waiting⟩ := later
  refine ⟨final, ?_⟩
  rw [Program.start_bind, Pci.drive, Program.start_modifyState,
    Behavior.finish_bind]
  exact waiting

theorem StillWaits.clock
    (atEdge : pci.pciClk = .one)
    (later : StillWaits (next ()) (pci.clocked cycle) cycles) :
    StillWaits (pciNextPosedge >>= next) pci (cycle :: cycles) := by
  obtain ⟨final, waiting⟩ := later
  refine ⟨final, ?_⟩
  rw [Program.start_bind, List.flatMap_cons,
    ((posedge_holds cycle atEdge).bind _).run]
  exact waiting

/-- A client waits for the next edge. -/
theorem pciNextPosedge_stillWaits (atEdge : pci.pciClk = .one) :
    StillWaits (pciNextPosedge : Call User Handle Unit) pci [] := by
  obtain ⟨next, waits⟩ := posedge_waits atEdge
  refine ⟨pci, ?_⟩
  rw [waits]
  rfl

/-- A wait for a condition that no edge meets. -/
theorem whileDo_stillWaits
    {condition : SimbusPci User Handle → Bool}
    (atEdge : pci.pciClk = .one)
    (now : condition pci = true)
    (goesOn : ∀ (state : SimbusPci User Handle), ∀ cycle ∈ cycles,
      condition (state.clocked cycle) = true) :
    StillWaits (Program.whileDo condition pciNextPosedge) pci cycles := by
  induction cycles generalizing pci with
  | nil =>
      obtain ⟨next, waits⟩ := posedge_waits atEdge
      refine ⟨pci, ?_⟩
      rw [whileDo_posedge now atEdge, waits, Behavior.await_bind]
      rfl
  | cons cycle cycles inductionHypothesis =>
      have first := goesOn pci cycle List.mem_cons_self
      obtain ⟨final, waiting⟩ := inductionHypothesis (clocked_pciClk pci cycle)
        first fun state later member =>
          goesOn state later (List.mem_cons_of_mem cycle member)
      refine ⟨final, ?_⟩
      rw [whileDo_posedge now atEdge, List.flatMap_cons,
        ((posedge_holds cycle atEdge).bind _).run]
      exact waiting

end StillWaits

end

end Simbus.Pci
