import Simbus.Clocked.Pair
import Simbus.P2p.Transport
import Simbus.Words

/-!
# Programs on a point-to-point bus

What a program does with the library: set and read data, choose the mode of the
clock and wait for its edges.  While the clock runs, a host and a device that
wait for the next rising edge get to it together, with the data of each other.
-/

namespace Simbus.P2p

open FourValued Axi4 Clocked

/-- What arrives from the server: an UNTIL, or FINISH (or a closed stream). -/
inductive Reply where
  | until (message : Message)
  | finish

/-- A client of the library, and the data of the program that it belongs to. -/
structure Client (User : Type) where
  bus : SimbusP2p
  user : User

/-- A function of the library, or of a program that calls it. -/
abbrev Call (User Value : Type) : Type :=
  Program (Client User) Reply Value

/-! ## Data -/

/-- The words of the first bits of a vector; others keep what they have. -/
def peekBits
    (width : Nat)
    (bits : Bits)
    (data : Nat → BitVec 32) : Nat → BitVec 32 := fun word =>
  if 32 * word < width then
    sampleWord fun bit : Fin 32 =>
      if 32 * word + bit.val < width then
        bits (32 * word + bit.val)
      else
        .zero
  else
    data word

/-- The first bits of a vector from words. -/
def pokeBits
    (width : Nat)
    (data : Nat → BitVec 32)
    (bits : Bits) : Bits := fun idx =>
  if idx < width then
    Logic4.ofBool ((data (idx / 32)).getLsbD (idx % 32))
  else
    bits idx

namespace SimbusP2p

/-- `simbus_p2p_in`, without its count of undefined bits. -/
def simbusP2pIn
    (bus : SimbusP2p)
    (data : Nat → BitVec 32) : Nat → BitVec 32 :=
  peekBits bus.widthI bus.dataI data

/-- `simbus_p2p_out_peek`, without its count of undefined bits. -/
def simbusP2pOutPeek
    (bus : SimbusP2p)
    (data : Nat → BitVec 32) : Nat → BitVec 32 :=
  peekBits bus.widthO bus.dataO data

/-- `simbus_p2p_out`. -/
def simbusP2pOut
    (bus : SimbusP2p)
    (data : Nat → BitVec 32) : SimbusP2p :=
  { bus with dataO := pokeBits bus.widthO data bus.dataO }

/-- `simbus_p2p_in_poke`. -/
def simbusP2pInPoke
    (bus : SimbusP2p)
    (data : Nat → BitVec 32) : SimbusP2p :=
  { bus with dataI := pokeBits bus.widthI data bus.dataI }

/-- `simbus_p2p_clock_mode`, which asserts that the client is the host. -/
def simbusP2pClockMode
    (bus : SimbusP2p)
    (mode : BitVec 2) : Option SimbusP2p :=
  if bus.ident = 0 then
    some { bus with clockMode := bitsOf mode }
  else
    none

end SimbusP2p

/-- Words that are written are read again. -/
theorem peekBits_pokeBits
    {width : Nat}
    {bits : Bits}
    {data before : Nat → BitVec 32}
    {word : Nat}
    {old : Bits}
    (arrived : ∀ idx < width, bits idx = pokeBits width data old idx)
    (inside : 32 * word < width)
    (short : ∀ bit < 32, width ≤ 32 * word + bit →
      (data word).getLsbD bit = false) :
    peekBits width bits before word = data word := by
  rw [peekBits, if_pos inside]
  apply sampleWord_eq
  intro bit
  have place : (32 * word + bit.val) / 32 = word ∧
      (32 * word + bit.val) % 32 = bit.val := by
    omega
  rw [driveWord, Fin.getElem_fin, ← BitVec.getLsbD_eq_getElem]
  by_cases used : 32 * word + bit.val < width
  · rw [if_pos used, arrived _ used, pokeBits, if_pos used, place.1, place.2]
  · rw [if_neg used, short bit.val bit.isLt (Nat.le_of_not_lt used)]
    rfl

/-! ## Edges -/

section

variable {User : Type}

/-- `send_ready_p2p`. -/
def sendReadyP2p : Call User Int :=
  Program.exchange fun
    | .finish => pure (-1)
    | .until message => do
        match (← Program.getState).bus.sample message with
        | some bus =>
            Program.modifyState fun client => { client with bus := bus }
            return 0
        | none => Program.abort

/-- Exchange until the clock has a level or the server has finished. -/
def exchangeUntil (level : Logic4) (rc : Int) : Call User Int :=
  Program.loop (fun rc => do
    let client ← Program.getState
    if client.bus.clock ≠ level ∧ 0 ≤ rc then
      let rc ← sendReadyP2p
      return .inl rc
    else
      return .inr rc) rc

/-- The turns of `simbus_p2p_clock_posedge`. -/
def posedgeTurns : Nat → Int → Call User Int
  | 0, rc => return rc
  | cycles + 1, rc => do
      if 0 ≤ rc then
        let rc ← exchangeUntil .zero rc
        let rc ← exchangeUntil .one rc
        posedgeTurns cycles rc
      else
        return rc

/-- `simbus_p2p_clock_posedge`. -/
def simbusP2pClockPosedge (cycles : Nat) : Call User Int :=
  posedgeTurns cycles 0

end

/-! ## The server -/

/-- The protocol with what it knows of its clients. -/
structure Server where
  proto : PointToPoint
  hostSignals : SignalMap String
  deviceSignals : SignalMap String

/--
One round of `process_client_ready_` for both clients and of `bus_ready`.  The
lines are not checked against their buffers here.
-/
def Server.answer
    {User₁ User₂ : Type} :
    Answer Server (Client User₁) Reply (Client User₂) Reply :=
  fun server host device =>
    let hostSignals := server.hostSignals.recordAll host.bus.ready.tokens
    let deviceSignals :=
      server.deviceSignals.recordAll device.bus.ready.tokens
    (server.proto.runRun hostSignals deviceSignals).map
      fun (proto, toHost, toDevice) =>
        ({ proto := proto
           hostSignals := hostSignals
           deviceSignals := deviceSignals },
          .until (untilMessage proto toHost),
          .until (untilMessage proto toDevice))

/-! ## One exchange -/

/-- A host and a device of the same widths, on a bus whose clock runs. -/
structure Linked
    (server : Server)
    (host device : SimbusP2p) : Prop where
  runs : server.proto.masterClockMode = .run
  canTrace : server.proto.CanTrace
  someI : 0 < server.proto.widI
  someO : 0 < server.proto.widO
  isHost : host.ident = 0
  hostMode : ∀ idx < 2, host.clockMode idx = .zero
  hostWidthI : host.widthI = server.proto.widI
  hostWidthO : host.widthO = server.proto.widO
  isDevice : device.ident ≠ 0
  deviceWidthI : device.widthI = server.proto.widI
  deviceWidthO : device.widthO = server.proto.widO
  sameClock : device.clock = host.clock

/-- A host after an UNTIL, with the data of the device. -/
def hostAfter (server : Server) (host device : SimbusP2p) : SimbusP2p :=
  let clock := server.proto.clock.advanceBusClock
  { host with
    busTime := clock.time
    clock := clock.busClk
    dataI := fun idx =>
      if idx < host.widthI then device.dataI idx else host.dataI idx }

/-- A device after an UNTIL, with the data of the host. -/
def deviceAfter (server : Server) (host device : SimbusP2p) : SimbusP2p :=
  let clock := server.proto.clock.advanceBusClock
  { device with
    busTime := clock.time
    clock := clock.busClk
    dataO := fun idx =>
      if idx < device.widthO then host.dataO idx else device.dataO idx }

/-- The mode of a host that lets the clock run. -/
theorem modeOf_encode
    {bits : Bits}
    (isRun : ∀ idx < 2, bits idx = .zero) :
    PointToPoint.modeOf (encode 2 bits).reverse = .run := by
  have low := isRun 0 (by decide)
  have high := isRun 1 (by decide)
  have isText : (encode 2 bits).reverse = [bits 0, bits 1] := rfl
  rw [isText, low, high]
  rfl

/-- What an exchange does to the server and to both clients. -/
theorem Linked.answer
    {server : Server}
    {host device : SimbusP2p}
    {User₁ User₂ : Type}
    (linked : Linked server host device)
    (user₁ : User₁)
    (user₂ : User₂) :
    ∃ server' toHost toDevice,
      Server.answer server ⟨host, user₁⟩ ⟨device, user₂⟩ =
        some (server', .until toHost, .until toDevice) ∧
      host.sample toHost = some (hostAfter server host device) ∧
      device.sample toDevice = some (deviceAfter server host device) ∧
      server'.proto.clock = server.proto.clock.advanceBusClock ∧
      Linked server' (hostAfter server host device)
        (deviceAfter server host device) := by
  have hostTokens := ready_host linked.isHost
    (linked.hostWidthO ▸ linked.someO)
  have deviceTokens := ready_device linked.isDevice
    (linked.deviceWidthI ▸ linked.someI)
  have hostMode : (server.hostSignals.recordAll host.ready.tokens)
      "CLOCK_MODE" = (encode 2 host.clockMode).reverse := by
    rw [hostTokens]
    rfl
  have hostData : (server.hostSignals.recordAll host.ready.tokens)
      "DATA_O" = (encode server.proto.widO host.dataO).reverse := by
    rw [hostTokens, linked.hostWidthO]
    rfl
  have deviceData : (server.deviceSignals.recordAll device.ready.tokens)
      "DATA_I" = (encode server.proto.widI device.dataI).reverse := by
    rw [deviceTokens, linked.deviceWidthI]
    rfl
  rw [Server.answer, PointToPoint.runRun_of_canTrace linked.canTrace]
  refine ⟨_, _, _, rfl, ?_, ?_, rfl, ?_⟩
  · simp only [deviceData, vectorText_copyData]
    rw [sample_host, length_encode, if_pos linked.someI]
    simp only [hostAfter, Option.some.injEq, SimbusP2p.mk.injEq, true_and]
    funext idx
    rw [← linked.hostWidthI, decodeData_encode]
  · simp only [hostData, vectorText_copyData, linked.runs]
    rw [sample_device, length_encode, if_pos linked.someO]
    simp only [deviceAfter, Option.some.injEq, SimbusP2p.mk.injEq, true_and]
    refine ⟨rfl, ?_, trivial⟩
    funext idx
    rw [← linked.deviceWidthO, decodeData_encode]
  · exact
      { linked with
        runs := by
          change PointToPoint.modeOf ((server.hostSignals.recordAll
            host.ready.tokens) "CLOCK_MODE") = .run
          rw [hostMode, modeOf_encode linked.hostMode]
        canTrace := ⟨linked.canTrace.widO, linked.canTrace.widI⟩
        sameClock := rfl }

/-! ## Waiting together -/

section

variable {User Value User₁ Value₁ User₂ Value₂ : Type}

/-- A client that waits for a level takes the next UNTIL. -/
theorem exchangeUntil_start
    {level : Logic4}
    {client : Client User}
    (waits : client.bus.clock ≠ level) :
    ∃ next, (exchangeUntil level 0).start client = .await client next ∧
      ∀ message bus, client.bus.sample message = some bus →
        next (.until message) =
          (exchangeUntil level 0).start { client with bus := bus } := by
  have goesOn : client.bus.clock ≠ level ∧ (0 : Int) ≤ 0 :=
    ⟨waits, Int.le_refl 0⟩
  rw [exchangeUntil, Program.start_loop]
  · simp only [Program.start_bind, Program.start_getState, Behavior.finish_bind,
      goesOn, ne_eq, not_false_eq_true, and_self, if_true, sendReadyP2p,
      Program.start_exchange, Behavior.await_bind]
    refine ⟨_, rfl, ?_⟩
    intro message bus sampled
    simp only [Program.start_bind, Program.start_getState, Behavior.finish_bind,
      sampled, Program.start_modifyState]
    rfl
  · intro next final rest
    simp only [Program.start_bind, Program.start_getState, Behavior.finish_bind,
      goesOn, ne_eq, not_false_eq_true, and_self, if_true]
    exact nofun

theorem exchangeUntil_done
    {level : Logic4}
    {client : Client User}
    (atLevel : client.bus.clock = level)
    (rc : Int) :
    (exchangeUntil level rc).start client = .finish rc client := by
  rw [exchangeUntil, Program.start_loop]
  · simp only [Program.start_bind, Program.start_getState, Behavior.finish_bind,
      atLevel, ne_eq, not_true_eq_false, false_and, if_false]
    rfl
  · intro next final rest
    simp only [Program.start_bind, Program.start_getState, Behavior.finish_bind,
      atLevel, ne_eq, not_true_eq_false, false_and, if_false]
    exact nofun

/-- A wait for one edge is a wait for the low and then for the high clock. -/
theorem posedge_start
    (client : Client User)
    (next : Int → Client User → Behavior (Client User) Reply Value) :
    ((simbusP2pClockPosedge 1).start client).bind next =
      ((exchangeUntil .zero 0).start client).bind fun rc client =>
        ((exchangeUntil .one rc).start client).bind next := by
  simp only [simbusP2pClockPosedge, posedgeTurns, Int.le_refl, if_true,
    Program.start_bind, Behavior.bind_assoc]
  rfl

variable {server : Server}
variable {host device : SimbusP2p}
variable {user₁ : User₁}
variable {user₂ : User₂}
variable {next₁ : Int → Client User₁ →
  Behavior (Client User₁) Reply Value₁}
variable {next₂ : Int → Client User₂ →
  Behavior (Client User₂) Reply Value₂}

/-- Two clients that wait for the same level, and then go on. -/
abbrev waitingFor
    (level : Logic4)
    (next₁ : Int → Client User₁ → Behavior (Client User₁) Reply Value₁)
    (next₂ : Int → Client User₂ → Behavior (Client User₂) Reply Value₂)
    (server : Server)
    (host device : SimbusP2p)
    (user₁ : User₁)
    (user₂ : User₂) :
    Lockstep Server (Client User₁) Reply Value₁ (Client User₂) Reply Value₂ :=
  ⟨server, ((exchangeUntil level 0).start ⟨host, user₁⟩).bind next₁,
    ((exchangeUntil level 0).start ⟨device, user₂⟩).bind next₂⟩

/-- The programs have not gone on yet. -/
structure Pausing
    (pair : Lockstep Server (Client User₁) Reply Value₁ (Client User₂) Reply
      Value₂)
    (user₁ : User₁)
    (user₂ : User₂) : Prop where
  first : pair.first.state.user = user₁
  second : pair.second.state.user = user₂

/-- One exchange of two clients that wait for a level. -/
theorem Linked.step
    {level : Logic4}
    (linked : Linked server host device)
    (waits : host.clock ≠ level)
    (user₁ : User₁)
    (user₂ : User₂)
    (next₁ : Int → Client User₁ → Behavior (Client User₁) Reply Value₁)
    (next₂ : Int → Client User₂ → Behavior (Client User₂) Reply Value₂) :
    Pausing (waitingFor level next₁ next₂ server host device user₁ user₂)
        user₁ user₂ ∧
      ∃ server',
        (waitingFor level next₁ next₂ server host device user₁ user₂).step
            Server.answer =
          some (waitingFor level next₁ next₂ server'
            (hostAfter server host device) (deviceAfter server host device)
            user₁ user₂) ∧
        server'.proto.clock = server.proto.clock.advanceBusClock ∧
        Linked server' (hostAfter server host device)
          (deviceAfter server host device) := by
  have deviceWaits : device.clock ≠ level := by
    rwa [linked.sameClock]
  obtain ⟨later₁, isWaiting₁, answers₁⟩ :=
    @exchangeUntil_start _ level ⟨host, user₁⟩ waits
  obtain ⟨later₂, isWaiting₂, answers₂⟩ :=
    @exchangeUntil_start _ level ⟨device, user₂⟩ deviceWaits
  obtain ⟨server', toHost, toDevice, answered, sampled₁, sampled₂, clock,
    linked'⟩ := linked.answer user₁ user₂
  have shape : waitingFor level next₁ next₂ server host device user₁ user₂ =
      ⟨server, .await ⟨host, user₁⟩ fun reply => (later₁ reply).bind next₁,
        .await ⟨device, user₂⟩ fun reply => (later₂ reply).bind next₂⟩ := by
    rw [waitingFor, isWaiting₁, isWaiting₂, Behavior.await_bind,
      Behavior.await_bind]
  refine ⟨?_, server', ?_, clock, linked'⟩
  · rw [shape]
    exact ⟨rfl, rfl⟩
  · rw [shape, Pair.step_await answered, answers₁ _ _ sampled₁,
      answers₂ _ _ sampled₂]

/-- The clock in the phase after another one. -/
theorem busClk_of_phase
    {clock : BusClock}
    {phase : Fin 4}
    (isPhase : clock.phase = phase) :
    clock.advanceBusClock.phase = phase + 1 ∧
      clock.advanceBusClock.busClk =
        if (phase + 1).val / 2 = 0 then .one else .zero := by
  subst isPhase
  exact ⟨rfl, rfl⟩

/-- Two clients between two edges, right after the earlier one. -/
structure AtEdge
    (server : Server)
    (host device : SimbusP2p) : Prop where
  linked : Linked server host device
  phase : server.proto.clock.phase = 0
  notLow : host.clock ≠ .zero

/--
Both clients get to the next rising edge after four exchanges, with the data
that the other one has set.
-/
theorem AtEdge.posedge
    (atEdge : AtEdge server host device)
    (user₁ : User₁)
    (user₂ : User₂)
    (next₁ : Int → Client User₁ → Behavior (Client User₁) Reply Value₁)
    (next₂ : Int → Client User₂ → Behavior (Client User₂) Reply Value₂) :
    let pair : Lockstep Server (Client User₁) Reply Value₁ (Client User₂) Reply
        Value₂ :=
      ⟨server, ((simbusP2pClockPosedge 1).start ⟨host, user₁⟩).bind next₁,
        ((simbusP2pClockPosedge 1).start ⟨device, user₂⟩).bind next₂⟩
    (∀ count < 4, ∃ paused, pair.run Server.answer count = some paused ∧
        Pausing paused user₁ user₂) ∧
      ∃ server' host' device',
        pair.run Server.answer 4 =
          some ⟨server', next₁ 0 ⟨host', user₁⟩, next₂ 0 ⟨device', user₂⟩⟩ ∧
        AtEdge server' host' device' ∧
        (∀ idx < host.widthI, host'.dataI idx = device.dataI idx) ∧
        (∀ idx < device.widthO, device'.dataO idx = host.dataO idx) ∧
        host'.widthI = host.widthI ∧ device'.widthO = device.widthO := by
  intro pair
  let high₁ : Int → Client User₁ → Behavior (Client User₁) Reply Value₁ :=
    fun rc client => ((exchangeUntil .one rc).start client).bind next₁
  let high₂ : Int → Client User₂ → Behavior (Client User₂) Reply Value₂ :=
    fun rc client => ((exchangeUntil .one rc).start client).bind next₂
  have isPair : pair =
      waitingFor .zero high₁ high₂ server host device user₁ user₂ := by
    rw [waitingFor, ← posedge_start ⟨host, user₁⟩ next₁,
      ← posedge_start ⟨device, user₂⟩ next₂]
  -- The clock stays high for a phase, and then is low for two.
  obtain ⟨paused₀, server₁, stepped₀, clock₁, linked₁⟩ :=
    atEdge.linked.step atEdge.notLow user₁ user₂ high₁ high₂
  obtain ⟨phase₁, level₁⟩ := busClk_of_phase atEdge.phase
  rw [← clock₁] at phase₁
  let host₁ := hostAfter server host device
  let device₁ := deviceAfter server host device
  have notLow₁ : host₁.clock ≠ .zero := by
    rw [show host₁.clock = .one from level₁]
    intro isOther
    cases isOther
  obtain ⟨paused₁, server₂, stepped₁, clock₂, linked₂⟩ :=
    linked₁.step notLow₁ user₁ user₂ high₁ high₂
  obtain ⟨phase₂, level₂⟩ := busClk_of_phase phase₁
  rw [← clock₂] at phase₂
  let host₂ := hostAfter server₁ host₁ device₁
  let device₂ := deviceAfter server₁ host₁ device₁
  have isLow₂ : host₂.clock = .zero := level₂
  have notHigh₂ : host₂.clock ≠ .one := by
    rw [isLow₂]
    intro isOther
    cases isOther
  have turned : waitingFor .zero high₁ high₂ server₂ host₂ device₂ user₁ user₂ =
      waitingFor .one next₁ next₂ server₂ host₂ device₂ user₁ user₂ := by
    rw [waitingFor, @exchangeUntil_done _ _ ⟨host₂, user₁⟩ isLow₂ 0,
      @exchangeUntil_done _ _ ⟨device₂, user₂⟩ isLow₂ 0, Behavior.finish_bind,
      Behavior.finish_bind]
  obtain ⟨paused₂, server₃, stepped₂, clock₃, linked₃⟩ :=
    linked₂.step notHigh₂ user₁ user₂ next₁ next₂
  obtain ⟨phase₃, level₃⟩ := busClk_of_phase phase₂
  rw [← clock₃] at phase₃
  let host₃ := hostAfter server₂ host₂ device₂
  let device₃ := deviceAfter server₂ host₂ device₂
  have notHigh₃ : host₃.clock ≠ .one := by
    rw [show host₃.clock = .zero from level₃]
    intro isOther
    cases isOther
  obtain ⟨paused₃, server₄, stepped₃, clock₄, linked₄⟩ :=
    linked₃.step notHigh₃ user₁ user₂ next₁ next₂
  obtain ⟨phase₄, level₄⟩ := busClk_of_phase phase₃
  rw [← clock₄] at phase₄
  let host₄ := hostAfter server₃ host₃ device₃
  let device₄ := deviceAfter server₃ host₃ device₃
  have isHigh₄ : host₄.clock = .one := level₄
  have risen : waitingFor .one next₁ next₂ server₄ host₄ device₄ user₁ user₂ =
      ⟨server₄, next₁ 0 ⟨host₄, user₁⟩, next₂ 0 ⟨device₄, user₂⟩⟩ := by
    rw [waitingFor, @exchangeUntil_done _ _ ⟨host₄, user₁⟩ isHigh₄ 0,
      @exchangeUntil_done _ _ ⟨device₄, user₂⟩ isHigh₄ 0, Behavior.finish_bind,
      Behavior.finish_bind]
  have runOne : pair.run Server.answer 1 = some
      (waitingFor .zero high₁ high₂ server₁ host₁ device₁ user₁ user₂) := by
    rw [isPair, Pair.run, stepped₀]
    rfl
  have runTwo : pair.run Server.answer 2 = some
      (waitingFor .one next₁ next₂ server₂ host₂ device₂ user₁ user₂) := by
    rw [Pair.run_add 1 1, runOne, Option.bind_some, Pair.run, stepped₁, ← turned]
    rfl
  have runThree : pair.run Server.answer 3 = some
      (waitingFor .one next₁ next₂ server₃ host₃ device₃ user₁ user₂) := by
    rw [Pair.run_add 2 1, runTwo, Option.bind_some, Pair.run, stepped₂]
    rfl
  have runFour : pair.run Server.answer 4 = some
      ⟨server₄, next₁ 0 ⟨host₄, user₁⟩, next₂ 0 ⟨device₄, user₂⟩⟩ := by
    rw [Pair.run_add 3 1, runThree, Option.bind_some, Pair.run, stepped₃, ← risen]
    rfl
  constructor
  · intro count bounded
    rcases count with _ | _ | _ | _ | count
    · exact ⟨_, rfl, isPair ▸ paused₀⟩
    · exact ⟨_, runOne, paused₁⟩
    · exact ⟨_, runTwo, paused₂⟩
    · exact ⟨_, runThree, paused₃⟩
    · omega
  · refine ⟨server₄, host₄, device₄, runFour, ⟨linked₄, phase₄, ?_⟩, ?_, ?_, rfl,
      rfl⟩
    · rw [isHigh₄]
      intro isZero
      cases isZero
    · intro idx inside
      exact if_pos inside
    · intro idx inside
      exact if_pos inside

end

end Simbus.P2p
