import Simbus.Axi4.Server
import Simbus.P2p.Protocol
import Simbus.Pcie.Server

/-!
# The protocols keep time

Every step of a protocol object advances its clock and sends the time and the
level of the clock.  So what any number of steps sends is what the clock alone
would send, whatever the clients report.
-/

namespace Simbus

open FourValued

/-- What the clients of a bus have reported: those of host and device. -/
abbrev Reported : Type := SignalMap String × SignalMap String

/-- What a run of steps sends; there is nothing after a failed assertion. -/
def runSends
    {State : Type}
    (step : State → Reported → Option (State × Sent)) :
    State → List Reported → Option (List Sent)
  | _, [] => some []
  | state, reported :: rest => do
      let (state, sent) ← step state reported
      let later ← runSends step state rest
      return sent :: later

/-! ## The messages -/

/-- The value of a signal of one bit among the tokens of a message. -/
def bitAmong (name : String) (tokens : Tokens String) : Logic4 :=
  ((tokens.lookup name).getD []).headD .x

/-- What the host of a point-to-point bus is sent. -/
def P2p.PointToPoint.hostStep
    (proto : P2p.PointToPoint)
    (reported : Reported) : Option (P2p.PointToPoint × Sent) :=
  (proto.runRun reported.1 reported.2).map fun (proto, toHost, _) =>
    (proto, proto.clock.time, bitAmong "CLOCK" toHost)

/-- What the root complex of a PCIe bus is sent. -/
def Pcie.PCIeTLP.masterStep
    (proto : Pcie.PCIeTLP)
    (reported : Reported) : Option (Pcie.PCIeTLP × Sent) :=
  (proto.runRun reported.1 reported.2).map fun (proto, toMaster, _) =>
    (proto, proto.clock.time, bitAmong "user_clk" toMaster)

/-- What the endpoint of a PCIe bus is sent. -/
def Pcie.PCIeTLP.slaveStep
    (proto : Pcie.PCIeTLP)
    (reported : Reported) : Option (Pcie.PCIeTLP × Sent) :=
  (proto.runRun reported.1 reported.2).map fun (proto, _, toSlave) =>
    (proto, proto.clock.time, bitAmong "user_clk" toSlave)

/-- The clock in a message to an AXI4 master. -/
def Axi4.MasterReply.clock : Axi4.MasterReply → Logic4
  | .until aclk _ => aclk
  | .finish => .x

/-- The clock in a message to an AXI4 slave. -/
def Axi4.SlaveReply.clock : Axi4.SlaveReply → Logic4
  | .until aclk _ => aclk
  | .finish => .x

/-- What the master of an AXI4 bus is sent. -/
def Axi4.AXI4Protocol.masterStep
    (proto : Axi4.AXI4Protocol)
    (reported : Reported) : Option (Axi4.AXI4Protocol × Sent) :=
  (proto.runRun reported.1 reported.2).map fun (proto, toMaster, _) =>
    (proto, proto.clock.time, toMaster.clock)

/-- What the slave of an AXI4 bus is sent. -/
def Axi4.AXI4Protocol.slaveStep
    (proto : Axi4.AXI4Protocol)
    (reported : Reported) : Option (Axi4.AXI4Protocol × Sent) :=
  (proto.runRun reported.1 reported.2).map fun (proto, _, toSlave) =>
    (proto, proto.clock.time, toSlave.clock)

/-! ## Runs -/

section

variable {State : Type}
variable {step : State → Reported → Option (State × Sent)}
variable {clock : State → BusClock}
variable {options : ClockOptions}

/-- Each step advances the clock and sends what it shows. -/
def SendsClock
    (step : State → Reported → Option (State × Sent))
    (clock : State → BusClock) : Prop :=
  ∀ state reported state' sent,
    step state reported = some (state', sent) →
    clock state' = (clock state).advanceBusClock ∧
      sent = ((clock state').time, (clock state').busClk)

/-- A run sends what the clock alone would send. -/
theorem SendsClock.runSends
    (sends : SendsClock step clock)
    {state : State}
    {first : Nat}
    {inputs : List Reported}
    {sent : List Sent}
    (starts : clock state = BusClock.advanced options first)
    (ran : runSends step state inputs = some sent) :
    sent = (List.range' first inputs.length).map fun step =>
      ((BusClock.advanced options (step + 1)).time,
        (BusClock.advanced options (step + 1)).busClk) := by
  induction inputs generalizing state first sent with
  | nil =>
      cases ran
      rfl
  | cons reported rest inductionHypothesis =>
      simp only [Simbus.runSends, Option.bind_eq_bind,
        Option.bind_eq_some_iff, Option.pure_def, Option.some.injEq] at ran
      obtain ⟨⟨next, sentNow⟩, stepped, later, ranLater, rfl⟩ := ran
      obtain ⟨advances, rfl⟩ := sends state reported next sentNow stepped
      have startsNext : clock next = BusClock.advanced options (first + 1) := by
        rw [advances, starts]
        rfl
      rw [inductionHypothesis startsNext ranLater, startsNext,
        List.length_cons, List.range'_succ, List.map_cons]

/-- A run from the constructor on keeps time. -/
theorem SendsClock.keepsTime
    (sends : SendsClock step clock)
    {state : State}
    {inputs : List Reported}
    {sent : List Sent}
    (made : BusClock.make options = some (clock state))
    (small : elapsed options inputs.length < 2 ^ 64)
    (ran : Simbus.runSends step state inputs = some sent) :
    sent.length = inputs.length ∧ KeepsTime options sent := by
  rw [BusClock.make, Option.ite_none_right_eq_some] at made
  obtain ⟨accepted, starts⟩ := made
  rw [Option.some.injEq] at starts
  have isSent : sent = sentBy options inputs.length := by
    have startsAt : clock state = BusClock.advanced options 0 := starts.symm
    rw [sends.runSends startsAt ran, sentBy, List.range_eq_range']
  rw [isSent]
  exact ⟨length_sentBy options inputs.length,
    keepsTime_sentBy accepted small⟩

end

/-! ## The protocols -/

theorem P2p.PointToPoint.hostStep_sendsClock :
    SendsClock P2p.PointToPoint.hostStep P2p.PointToPoint.clock := by
  intro proto reported proto' sent stepped
  rw [P2p.PointToPoint.hostStep, Option.map_eq_some_iff] at stepped
  obtain ⟨_, ran, isResult⟩ := stepped
  cases isResult
  rw [P2p.PointToPoint.runRun, Option.ite_none_right_eq_some] at ran
  obtain ⟨_, ran⟩ := ran
  cases ran
  exact ⟨rfl, rfl⟩

/-- What a step of a PCIe bus sends of the clock. -/
theorem Pcie.PCIeTLP.runRun_clock
    {proto proto' : Pcie.PCIeTLP}
    {master slave : SignalMap String}
    {toMaster toSlave : Tokens String}
    (ran : proto.runRun master slave = some (proto', toMaster, toSlave)) :
    proto'.clock = proto.clock.advanceBusClock ∧
      bitAmong "user_clk" toMaster = proto'.clock.busClk ∧
      bitAmong "user_clk" toSlave = proto'.clock.busClk := by
  rw [Pcie.PCIeTLP.runRun, Option.ite_none_right_eq_some] at ran
  obtain ⟨_, ran⟩ := ran
  cases ran
  exact ⟨rfl, rfl, rfl⟩

theorem Pcie.PCIeTLP.masterStep_sendsClock :
    SendsClock Pcie.PCIeTLP.masterStep Pcie.PCIeTLP.clock := by
  intro proto reported proto' sent stepped
  rw [Pcie.PCIeTLP.masterStep, Option.map_eq_some_iff] at stepped
  obtain ⟨⟨_, _, _⟩, ran, isResult⟩ := stepped
  cases isResult
  obtain ⟨advances, level, _⟩ := Pcie.PCIeTLP.runRun_clock ran
  exact ⟨advances, by rw [level]⟩

theorem Pcie.PCIeTLP.slaveStep_sendsClock :
    SendsClock Pcie.PCIeTLP.slaveStep Pcie.PCIeTLP.clock := by
  intro proto reported proto' sent stepped
  rw [Pcie.PCIeTLP.slaveStep, Option.map_eq_some_iff] at stepped
  obtain ⟨⟨_, _, _⟩, ran, isResult⟩ := stepped
  cases isResult
  obtain ⟨advances, _, level⟩ := Pcie.PCIeTLP.runRun_clock ran
  exact ⟨advances, by rw [level]⟩

/-- What a step of an AXI4 bus sends of the clock. -/
theorem Axi4.AXI4Protocol.runRun_clock
    {proto proto' : Axi4.AXI4Protocol}
    {master slave : SignalMap String}
    {toMaster : Axi4.MasterReply}
    {toSlave : Axi4.SlaveReply}
    (ran : proto.runRun master slave = some (proto', toMaster, toSlave)) :
    proto'.clock = proto.clock.advanceBusClock ∧
      toMaster.clock = proto'.clock.busClk ∧
      toSlave.clock = proto'.clock.busClk := by
  rw [Axi4.AXI4Protocol.runRun, Option.map_eq_some_iff] at ran
  obtain ⟨⟨phase, _, _⟩, answered, isResult⟩ := ran
  cases isResult
  simp only [Axi4.runRun, Option.ite_none_right_eq_some, Option.some.injEq,
    Prod.mk.injEq] at answered
  obtain ⟨_, _, rfl, rfl⟩ := answered
  have level : (if (proto.clock.phase.val + 1) % 4 / 2 = 0 then Logic4.one
      else .zero) = proto.clock.advanceBusClock.busClk := by
    rw [BusClock.busClk, BusClock.advanceBusClock, Fin.val_add]
    rfl
  exact ⟨rfl, level, level⟩

theorem Axi4.AXI4Protocol.masterStep_sendsClock :
    SendsClock Axi4.AXI4Protocol.masterStep Axi4.AXI4Protocol.clock := by
  intro proto reported proto' sent stepped
  rw [Axi4.AXI4Protocol.masterStep, Option.map_eq_some_iff] at stepped
  obtain ⟨⟨_, _, _⟩, ran, isResult⟩ := stepped
  cases isResult
  obtain ⟨advances, level, _⟩ := Axi4.AXI4Protocol.runRun_clock ran
  exact ⟨advances, by rw [level]⟩

theorem Axi4.AXI4Protocol.slaveStep_sendsClock :
    SendsClock Axi4.AXI4Protocol.slaveStep Axi4.AXI4Protocol.clock := by
  intro proto reported proto' sent stepped
  rw [Axi4.AXI4Protocol.slaveStep, Option.map_eq_some_iff] at stepped
  obtain ⟨⟨_, _, _⟩, ran, isResult⟩ := stepped
  cases isResult
  obtain ⟨advances, _, level⟩ := Axi4.AXI4Protocol.runRun_clock ran
  exact ⟨advances, by rw [level]⟩

/-- A run goes on as long as its steps keep what they need. -/
theorem runSends_isSome
    {State : Type}
    {step : State → Reported → Option (State × Sent)}
    {Keeps : State → Prop}
    {inputs : List Reported}
    (goesOn : ∀ state, Keeps state → ∀ reported ∈ inputs,
      ∃ next now, step state reported = some (next, now) ∧ Keeps next)
    {state : State}
    (keeps : Keeps state) :
    ∃ sent, runSends step state inputs = some sent := by
  induction inputs generalizing state with
  | nil =>
      exact ⟨[], rfl⟩
  | cons reported rest inductionHypothesis =>
      obtain ⟨next, now, stepped, keepsNext⟩ :=
        goesOn state keeps reported List.mem_cons_self
      obtain ⟨later, ranLater⟩ := inductionHypothesis
        (fun state keeps reported member =>
          goesOn state keeps reported (List.mem_cons_of_mem _ member))
        keepsNext
      refine ⟨now :: later, ?_⟩
      simp only [runSends, stepped, Option.bind_eq_bind, Option.bind_some,
        ranLater, Option.pure_def]

/-- What a client that sees the free clock is sent keeps time. -/
def SendsTime
    {State : Type}
    (options : ClockOptions)
    (step : State → Reported → Option (State × Sent))
    (state : State)
    (inputs : List Reported) : Prop :=
  ∀ sent, runSends step state inputs = some sent →
    sent.length = inputs.length ∧ KeepsTime options sent

/-- Every step of a point-to-point bus goes on if its data can be traced. -/
theorem P2p.PointToPoint.hostSends_isSome
    {proto : P2p.PointToPoint}
    (canTrace : proto.CanTrace)
    (inputs : List Reported) :
    ∃ sent, runSends P2p.PointToPoint.hostStep proto inputs = some sent := by
  refine runSends_isSome (fun proto canTrace reported _ => ?_) canTrace
  rw [P2p.PointToPoint.hostStep, P2p.PointToPoint.runRun_of_canTrace canTrace]
  exact ⟨_, _, rfl, canTrace.widO, canTrace.widI⟩

/-- Every step of a PCIe bus goes on if what is reported can be traced. -/
theorem Pcie.PCIeTLP.sends_isSome
    {inputs : List Reported}
    (canTrace : ∀ reported ∈ inputs,
      Pcie.PCIeTLP.CanTrace reported.1 reported.2)
    (proto : Pcie.PCIeTLP) :
    ∀ step ∈ [Pcie.PCIeTLP.masterStep, Pcie.PCIeTLP.slaveStep],
      ∃ sent, runSends step proto inputs = some sent := by
  rw [List.forall_mem_cons, List.forall_mem_singleton]
  constructor
  · have goesOn : ∀ proto : Pcie.PCIeTLP, True → ∀ reported ∈ inputs,
        ∃ next now, proto.masterStep reported = some (next, now) ∧ True := by
      intro proto _ reported member
      rw [Pcie.PCIeTLP.masterStep, Pcie.PCIeTLP.runRun,
        if_pos (canTrace reported member)]
      exact ⟨_, _, rfl, trivial⟩
    exact runSends_isSome goesOn trivial
  · have goesOn : ∀ proto : Pcie.PCIeTLP, True → ∀ reported ∈ inputs,
        ∃ next now, proto.slaveStep reported = some (next, now) ∧ True := by
      intro proto _ reported member
      rw [Pcie.PCIeTLP.slaveStep, Pcie.PCIeTLP.runRun,
        if_pos (canTrace reported member)]
      exact ⟨_, _, rfl, trivial⟩
    exact runSends_isSome goesOn trivial

/--
All clients that see the free clock of a point-to-point, AXI4 or PCIe bus are
sent the exact time, as long as it fits into the mantissa.  Only the assertions
of the AXI4 protocol and of the trace end a run.
-/
theorem protocols_keepTime
    (options : ClockOptions)
    (inputs : List Reported)
    (small : elapsed options inputs.length < 2 ^ 64) :
    (∀ widO widI proto,
      P2p.PointToPoint.make options widO widI = some proto →
      (proto.CanTrace →
        ∃ sent, runSends P2p.PointToPoint.hostStep proto inputs = some sent) ∧
        SendsTime options P2p.PointToPoint.hostStep proto inputs) ∧
    (∀ proto,
      Pcie.PCIeTLP.make options = some proto →
      ∀ step ∈ [Pcie.PCIeTLP.masterStep, Pcie.PCIeTLP.slaveStep],
        ((∀ reported ∈ inputs, Pcie.PCIeTLP.CanTrace reported.1 reported.2) →
          ∃ sent, runSends step proto inputs = some sent) ∧
          SendsTime options step proto inputs) ∧
    (∀ widths proto,
      Axi4.AXI4Protocol.make options = some proto →
      ∀ step ∈ [Axi4.AXI4Protocol.masterStep, Axi4.AXI4Protocol.slaveStep],
        SendsTime options step (proto.configure widths) inputs) := by
  refine ⟨fun widO widI proto made => ?_, fun proto made => ?_,
    fun widths proto made => ?_⟩
  · rw [P2p.PointToPoint.make, Option.map_eq_some_iff] at made
    obtain ⟨clock, made, rfl⟩ := made
    exact ⟨fun canTrace =>
        P2p.PointToPoint.hostSends_isSome canTrace inputs,
      fun _ ran =>
        P2p.PointToPoint.hostStep_sendsClock.keepsTime made small ran⟩
  · rw [Pcie.PCIeTLP.make, Option.map_eq_some_iff] at made
    obtain ⟨clock, made, rfl⟩ := made
    intro step member
    refine ⟨fun canTrace => Pcie.PCIeTLP.sends_isSome canTrace _ step member,
      ?_⟩
    revert step
    rw [List.forall_mem_cons, List.forall_mem_singleton]
    exact ⟨fun _ ran =>
        Pcie.PCIeTLP.masterStep_sendsClock.keepsTime made small ran,
      fun _ ran =>
        Pcie.PCIeTLP.slaveStep_sendsClock.keepsTime made small ran⟩
  · rw [Axi4.AXI4Protocol.make, Option.map_eq_some_iff] at made
    obtain ⟨clock, made, rfl⟩ := made
    rw [List.forall_mem_cons, List.forall_mem_singleton]
    exact ⟨fun _ ran =>
        Axi4.AXI4Protocol.masterStep_sendsClock.keepsTime made small ran,
      fun _ ran =>
        Axi4.AXI4Protocol.slaveStep_sendsClock.keepsTime made small ran⟩

/-- A clock of 10 ns with 2 ns of hold and setup. -/
def tenNanoseconds : ClockOptions :=
  ⟨5000, 5000, 2000, 2000⟩

/-- A period and a half of such a clock on a point-to-point bus. -/
theorem protocols_keepTime_tenNanoseconds :
    ∃ proto,
      P2p.PointToPoint.make tenNanoseconds 8 8 = some proto ∧
        SendsTime tenNanoseconds P2p.PointToPoint.hostStep proto
          (List.replicate 6 (.empty, .empty)) := by
  have made : P2p.PointToPoint.make tenNanoseconds 8 8 =
      some ⟨.ofOptions tenNanoseconds, .run, 8, 8⟩ := rfl
  have small : elapsed tenNanoseconds 6 < 2 ^ 64 := by decide
  exact ⟨_, made, ((protocols_keepTime tenNanoseconds
    (List.replicate 6 (.empty, .empty)) small).1 8 8 _ made).2⟩

end Simbus
