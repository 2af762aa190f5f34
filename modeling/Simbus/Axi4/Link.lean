import Simbus.Clocked.Meeting
import Simbus.Axi4.Protocol
import Simbus.Axi4.SlaveLoop

/-!
# A master and a slave of libsimbus on one bus

In the four phases of a clock the master waits for the next edge, the slave
goes through its loop once, and each of them sees what the other one drove.
-/

namespace Simbus.Axi4

open FourValued Clocked

section

variable {User Device : Type}

/-! ## Sampling -/

theorem decode_decode
    {first later : Text}
    (same : first.length = later.length)
    (bits : Bits) :
    decode later (decode first bits) = decode later bits := by
  funext idx
  rw [decode, decode, decode, same]
  split
  · rfl
  · rfl

theorem decode_update
    {text : Text}
    {idx : Nat}
    (inside : idx < text.length)
    (bits : Bits)
    (value : Logic4) :
    decode text (Function.update bits idx value) = decode text bits := by
  funext other
  rw [decode, decode]
  split
  · rfl
  · rename_i outside
    have differ : other ≠ idx := by omega
    rw [Function.update_of_ne differ]

namespace SimbusAxi4

/-- The AWREADY of an UNTIL, over which a BID of one bit is written. -/
def sampledAwready
    (widths : Widths)
    (text : SlaveSignal → Text) : Logic4 :=
  match (text .bid).getLast? with
  | none => decodeBit (text .awready)
  | some value =>
      if widths.widWidth = 1 then value else decodeBit (text .awready)

/-- The part of `bid` that an UNTIL is written to. -/
def sampledBid
    (widths : Widths)
    (text : SlaveSignal → Text)
    (bid : Bits) : Bits :=
  match (text .bid).getLast? with
  | none => bid
  | some value =>
      if 6 ≤ widths.widWidth then
        Function.update bid (widths.widWidth - 6) value
      else
        bid

/-- The inputs of a master after an UNTIL, without the order of its tokens. -/
theorem sampleMaster_eq
    (bus : SimbusAxi4 User)
    (aclk : Logic4)
    (text : SlaveSignal → Text)
    (lengths : HasLengths (slaveLength bus.widths) text) :
    bus.sampleMaster aclk text =
      { bus with
        aclk := aclk
        awready := sampledAwready bus.widths text
        wready := decodeBit (text .wready)
        bvalid := decodeBit (text .bvalid)
        bresp := decode (text .bresp) bus.bresp
        bid := sampledBid bus.widths text bus.bid
        arready := decodeBit (text .arready)
        rvalid := decodeBit (text .rvalid)
        rdata := decode (text .rdata) bus.rdata
        rresp := decode (text .rresp) bus.rresp
        rid := decode (text .rid) bus.rid
        irq := decode (text .irq) bus.irq } := by
  have two : (text .bresp).length = 2 := by
    have length := lengths .bresp
    simp only [slaveLength, reduceCtorEq, false_or, Option.some.injEq]
      at length
    exact length.symm
  simp only [sampleMaster, sampleBid, sampledAwready, sampledBid]
  cases (text .bid).getLast? with
  | none =>
      rfl
  | some value =>
      simp only
      split <;> rename_i width <;>
        simp [width, two, decode_update]

/-- Texts that are accepted have the same lengths where it matters. -/
theorem HasLengths.same
    {Signal : Type}
    {length : Signal → Option Nat}
    {first later : Signal → Text}
    (firstLengths : HasLengths length first)
    (laterLengths : HasLengths length later)
    (signal : Signal)
    (checked : length signal ≠ none) :
    (first signal).length = (later signal).length := by
  have one := (firstLengths signal).resolve_left checked
  have other := (laterLengths signal).resolve_left checked
  exact Option.some.inj (one.symm.trans other)

theorem HasLengths.decode_decode
    {Signal : Type}
    {length : Signal → Option Nat}
    {first later : Signal → Text}
    (firstLengths : HasLengths length first)
    (laterLengths : HasLengths length later)
    (signal : Signal)
    (checked : length signal ≠ none)
    (bits : Bits) :
    decode (later signal) (decode (first signal) bits) =
      decode (later signal) bits :=
  Axi4.decode_decode (firstLengths.same laterLengths signal checked) bits

theorem sampledBid_sampledBid
    {widths : Widths}
    {first later : SlaveSignal → Text}
    (same : (first .bid).length = (later .bid).length)
    (bid : Bits) :
    sampledBid widths later (sampledBid widths first bid) =
      sampledBid widths later bid := by
  rw [sampledBid, sampledBid, sampledBid]
  cases last : (later .bid).getLast? with
  | none =>
      rw [List.getLast?_eq_none_iff] at last
      rw [last, List.length_nil, List.length_eq_zero_iff] at same
      rw [same]
      rfl
  | some value =>
      simp only
      split
      · rename_i wide
        split
        · rfl
        · rw [Function.update_idem]
      · split <;> rfl

/-- What has been sampled before does not matter. -/
theorem sampleMaster_sampleMaster
    {bus : SimbusAxi4 User}
    {first later : SlaveSignal → Text}
    (firstLengths : HasLengths (slaveLength bus.widths) first)
    (laterLengths : HasLengths (slaveLength bus.widths) later)
    (before after : Logic4) :
    (bus.sampleMaster before first).sampleMaster after later =
      bus.sampleMaster after later := by
  have widths : (bus.sampleMaster before first).widths = bus.widths := by
    rw [sampleMaster_eq bus before first firstLengths]
  rw [sampleMaster_eq _ _ _ (widths ▸ laterLengths),
    sampleMaster_eq _ _ _ laterLengths,
    sampleMaster_eq _ _ _ firstLengths]
  have decodes := firstLengths.decode_decode laterLengths
  have bids : sampledBid bus.widths later
        (sampledBid bus.widths first bus.bid) =
      sampledBid bus.widths later bus.bid :=
    sampledBid_sampledBid (firstLengths.same laterLengths .bid nofun) bus.bid
  simp only [bids, decodes .bresp nofun, decodes .rdata nofun,
    decodes .rresp nofun, decodes .rid nofun, decodes .irq nofun]

theorem sampleSlave_sampleSlave
    {bus : SimbusAxi4 User}
    {first later : MasterSignal → Text}
    (firstLengths : HasLengths (masterLength bus.widths) first)
    (laterLengths : HasLengths (masterLength bus.widths) later)
    (before after : Logic4) :
    (bus.sampleSlave before first).sampleSlave after later =
      bus.sampleSlave after later := by
  have decodes := firstLengths.decode_decode laterLengths
  simp only [sampleSlave, decodes .awaddr nofun, decodes .awlen nofun,
    decodes .awsize nofun, decodes .awburst nofun, decodes .awlock nofun,
    decodes .awcache nofun, decodes .awprot nofun, decodes .awqos nofun,
    decodes .awid nofun, decodes .wdata nofun, decodes .wstrb nofun,
    decodes .araddr nofun, decodes .arlen nofun, decodes .arsize nofun,
    decodes .arburst nofun, decodes .arlock nofun, decodes .arcache nofun,
    decodes .arprot nofun, decodes .arqos nofun, decodes .arid nofun]

end SimbusAxi4

/-! ## The clock loops -/

/-- A `while` loop whose turn is one message that it passes on. -/
theorem start_whileDo_await
    {State Input : Type}
    {condition : State → Bool}
    {body : Program State Input Unit}
    {state : State}
    {next : Input → Behavior State Input Unit}
    (goesOn : condition state = true)
    (turn : body.start state = .await state next) :
    (Program.whileDo condition body).start state =
      .await state fun input =>
        (next input).bind fun _ => (Program.whileDo condition body).start := by
  rw [Program.start_whileDo_true goesOn, turn, Behavior.await_bind]
  intro final rest
  rw [turn]
  nofun

theorem start_axi4ReadyCommand (bus : SimbusAxi4 User) :
    (axi4ReadyCommand : MasterCall User Int).start bus =
      .await bus fun
        | .finish => .finish simbusAxi4Finished bus
        | .until aclk text =>
            if SimbusAxi4.HasLengths
                (SimbusAxi4.slaveLength bus.widths) text then
              .finish 0 (bus.sampleMaster aclk text)
            else
              .fail bus := by
  simp only [axi4ReadyCommand, Program.start_exchange]
  congr 1
  funext reply
  cases reply with
  | finish =>
      rfl
  | «until» aclk text =>
      simp only [Program.start_bind, Program.start_assert, decide_eq_true_eq]
      split <;> rfl

theorem awaitLevel_done
    {bus : SimbusAxi4 User}
    {level : Logic4}
    (reached : bus.aclk = level) :
    (awaitLevel level).start bus = .finish () bus :=
  Program.start_whileDo_false (by simp [reached])

theorem awaitLevel_waits
    {bus : SimbusAxi4 User}
    {level : Logic4}
    (waits : bus.aclk ≠ level) :
    (awaitLevel level).start bus =
      .await bus fun
        | .finish => (awaitLevel level).start bus
        | .until aclk text =>
            if SimbusAxi4.HasLengths
                (SimbusAxi4.slaveLength bus.widths) text then
              (awaitLevel level).start (bus.sampleMaster aclk text)
            else
              .fail bus := by
  refine (start_whileDo_await (by simp [waits]) (by
    rw [Program.start_bind, start_axi4ReadyCommand,
      Behavior.await_bind])).trans ?_
  congr 1
  funext reply
  cases reply with
  | finish =>
      rfl
  | «until» aclk text =>
      simp only
      split <;> rfl

theorem awaitClock_done
    {bus : SimbusAxi4 User}
    {level : Logic4}
    (reached : bus.aclk = level) :
    (awaitClock level).start bus = .finish () bus :=
  Program.start_whileDo_false (by simp [reached])

theorem awaitClock_waits
    {bus : SimbusAxi4 User}
    {level : Logic4}
    (waits : bus.aclk ≠ level) :
    (awaitClock level).start bus =
      .await bus fun
        | .finish => (awaitClock level).start bus
        | .until aclk text =>
            if SimbusAxi4.HasLengths
                (SimbusAxi4.masterLength bus.widths) text then
              (awaitClock level).start (bus.sampleSlave aclk text)
            else
              .fail bus := by
  refine (start_whileDo_await (by simp [waits]) (by
    rw [Program.start_bind, start_axi4sReadyCommand,
      Behavior.await_bind])).trans ?_
  congr 1
  funext reply
  cases reply with
  | finish =>
      rfl
  | «until» aclk text =>
      simp only
      split <;> rfl

/-! ## Exchanges -/

/-- A master after an exchange with a slave. -/
def SimbusAxi4.hear
    (server : Widths)
    (master : SimbusAxi4 User)
    (slave : SimbusAxi4 Device)
    (clock : Logic4) : SimbusAxi4 User :=
  master.sampleMaster clock (passToMaster server slave.slaveReady)

/-- A slave after an exchange with a master. -/
def SimbusAxi4.obey
    (slave : SimbusAxi4 Device)
    (master : SimbusAxi4 User)
    (clock : Logic4) : SimbusAxi4 Device :=
  slave.sampleSlave clock master.masterReady

section Exchange

variable {Value Result : Type}
variable {server : Widths}
variable {master other : SimbusAxi4 User}
variable {slave another : SimbusAxi4 Device}
variable {clock before : Logic4}

theorem hear_eq
    (compatible : Compatible server master.widths slave.widths)
    (clock : Logic4) :
    master.hear server slave clock =
      { master with
        aclk := clock
        awready := SimbusAxi4.sampledAwready master.widths
          (passToMaster server slave.slaveReady)
        wready := slave.wready
        bvalid := slave.bvalid
        bresp := decode (encode 2 slave.bresp) master.bresp
        bid := SimbusAxi4.sampledBid master.widths
          (passToMaster server slave.slaveReady) master.bid
        arready := slave.arready
        rvalid := slave.rvalid
        rdata := decode (encode slave.widths.dataWidth slave.rdata)
          master.rdata
        rresp := decode (encode 2 slave.rresp) master.rresp
        rid := decode (encode slave.widths.ridWidth slave.bid) master.rid
        irq := decode (passToMaster server slave.slaveReady .irq)
          master.irq } :=
  SimbusAxi4.sampleMaster_eq _ _ _ (slaveReady_accepted compatible)

theorem hear_aclk
    (compatible : Compatible server master.widths slave.widths)
    (clock : Logic4) :
    (master.hear server slave clock).aclk = clock := by
  rw [hear_eq compatible]

theorem hear_widths
    (compatible : Compatible server master.widths slave.widths)
    (clock : Logic4) :
    (master.hear server slave clock).widths = master.widths := by
  rw [hear_eq compatible]

theorem hear_masterReady
    (compatible : Compatible server master.widths slave.widths)
    (clock : Logic4) :
    (master.hear server slave clock).masterReady = master.masterReady := by
  rw [hear_eq compatible]
  rfl

theorem hear_hear
    (compatible : Compatible server master.widths slave.widths)
    (same : another.widths = slave.widths)
    (before clock : Logic4) :
    (master.hear server slave before).hear server another clock =
      master.hear server another clock :=
  SimbusAxi4.sampleMaster_sampleMaster (slaveReady_accepted compatible)
    (slaveReady_accepted (same ▸ compatible)) before clock

theorem hear_congr
    (same : another.slaveReady = slave.slaveReady) :
    master.hear server another clock = master.hear server slave clock := by
  rw [SimbusAxi4.hear, SimbusAxi4.hear, same]

theorem hear_obey (before : Logic4) :
    other.hear server (slave.obey master before) clock =
      other.hear server slave clock :=
  rfl

theorem obey_obey
    (compatible : Compatible server master.widths slave.widths)
    (same : other.masterReady = master.masterReady)
    (before clock : Logic4) :
    (slave.obey master before).obey other clock =
      slave.obey master clock := by
  rw [SimbusAxi4.obey, SimbusAxi4.obey, SimbusAxi4.obey, same]
  exact SimbusAxi4.sampleSlave_sampleSlave (masterReady_accepted compatible)
    (masterReady_accepted compatible) before clock

theorem exchange_loops
    {phase phase' : Nat}
    {level level' : Logic4}
    {next : Unit → SimbusAxi4 User →
      Behavior (SimbusAxi4 User) MasterReply Value}
    {next' : Unit → SimbusAxi4 Device →
      Behavior (SimbusAxi4 Device) SlaveReply Result}
    (compatible : Compatible server master.widths slave.widths)
    (goesTo : (phase + 1) % 4 = phase')
    (drives : clockIn phase' = clock)
    (masterWaits : master.aclk ≠ level)
    (slaveWaits : slave.aclk ≠ level') :
    Pair.step (answer server)
        ⟨phase, ((awaitLevel level).start master).bind next,
          ((awaitClock level').start slave).bind next'⟩ =
      some
        ⟨phase',
          ((awaitLevel level).start (master.hear server slave clock)).bind next,
          ((awaitClock level').start (slave.obey master clock)).bind next'⟩ := by
  subst goesTo drives
  rw [awaitLevel_waits masterWaits, awaitClock_waits slaveWaits,
    Behavior.await_bind, Behavior.await_bind,
    Pair.step_await (answer_compatible compatible phase)]
  simp only [slaveReady_accepted compatible, masterReady_accepted compatible,
    ↓reduceIte]
  rfl

/-- A slave after the part of the loop at the fall of the clock. -/
def fallen (slave : SimbusAxi4 Device) : SimbusAxi4 Device :=
  if slave.aresetN = .zero then reset slave else slave

theorem start_afterFall (slave : SimbusAxi4 Device) :
    (afterFall : SlaveCode Device Unit).start slave =
      .finish () (fallen slave) := by
  simp only [afterFall, Program.start_bind, Program.start_getState,
    Behavior.finish_bind, Program.start_ite, fallen]
  split <;> rfl

/-- The loop of the slave. -/
abbrev slaveLoop : SlaveCode Device Int :=
  Program.loop slaveTurn ()

/-- The slave after the rise of the clock. -/
def riseAndLoop (slave : SimbusAxi4 Device) :
    Behavior (SimbusAxi4 Device) SlaveReply Int :=
  (afterRise.start slave).bind fun _ => slaveLoop.start

theorem start_slaveTurn (slave : SimbusAxi4 Device) :
    (slaveTurn () : SlaveCode Device (Unit ⊕ Int)).start slave =
      ((awaitClock .zero).start slave).bind fun _ slave =>
        ((awaitClock .one).start (fallen slave)).bind fun _ slave =>
          (afterRise.start slave).bind fun _ => .finish (.inl ()) := by
  rw [slaveTurn, Program.start_bind]
  congr 1
  funext _ slave
  rw [Program.start_bind, start_afterFall, Behavior.finish_bind]
  rfl

theorem start_slaveLoop (high : slave.aclk ≠ .zero) :
    (slaveLoop : SlaveCode Device Int).start slave =
      ((awaitClock .zero).start slave).bind fun _ slave =>
        ((awaitClock .one).start (fallen slave)).bind fun _ =>
          riseAndLoop := by
  rw [slaveLoop, Program.start_loop, start_slaveTurn]
  · rw [Behavior.bind_assoc]
    congr 1
    funext _ slave
    rw [Behavior.bind_assoc]
    congr 1
    funext _ slave
    rw [Behavior.bind_assoc]
    rfl
  · intro next final rest
    rw [start_slaveTurn, awaitClock_waits high, Behavior.await_bind]
    nofun

@[simp]
theorem obey_aclk :
    (slave.obey master clock).aclk = clock :=
  rfl

@[simp]
theorem obey_aresetN :
    (slave.obey master clock).aresetN = master.aresetN :=
  rfl

theorem fallen_slaveReady (before clock : Logic4) :
    (fallen (slave.obey master before)).slaveReady =
      (fallen (slave.obey master clock)).slaveReady := by
  by_cases low : master.aresetN = .zero
  · simp only [fallen, obey_aresetN, low, ↓reduceIte]
    rfl
  · simp only [fallen, obey_aresetN, low, ↓reduceIte]
    rfl

theorem fallen_obey
    (compatible : Compatible server master.widths slave.widths)
    (same : other.masterReady = master.masterReady)
    (before clock : Logic4) :
    (fallen (slave.obey master before)).obey other clock =
      fallen (slave.obey master clock) := by
  have again := obey_obey compatible same before clock
  by_cases low : master.aresetN = .zero
  · simp only [fallen, obey_aresetN, low, ↓reduceIte]
    exact congrArg reset again
  · simp only [fallen, obey_aresetN, low, ↓reduceIte]
    exact again

@[simp]
theorem fallen_widths (slave : SimbusAxi4 Device) :
    (fallen slave).widths = slave.widths := by
  rw [fallen]
  split <;> rfl

/--
In one period of the clock each of the two sees what the other one drives, the
master what the slave drives after a reset, and the slave makes a step.
-/
theorem exchange_period
    (next : Unit → SimbusAxi4 User →
      Behavior (SimbusAxi4 User) MasterReply Value)
    (compatible : Compatible server master.widths slave.widths)
    (masterHigh : master.aclk ≠ .zero)
    (slaveHigh : slave.aclk ≠ .zero) :
    Pair.Reaches (answer server)
      ⟨0, (axi4NextPosedge.start master).bind next, slaveLoop.start slave⟩
      ⟨0, next ()
          (master.hear server (fallen (slave.obey master .one)) .one),
        riseAndLoop (fallen (slave.obey master .one))⟩ := by
  have start : (axi4NextPosedge.start master).bind next =
      ((awaitLevel .zero).start master).bind fun _ master =>
        ((awaitLevel .one).start master).bind next := by
    rw [axi4NextPosedge, Program.start_bind, Behavior.bind_assoc]
  rw [start, start_slaveLoop slaveHigh]
  have widths : ∀ another : SimbusAxi4 Device, ∀ clock,
      another.widths = slave.widths →
      Compatible server (master.hear server another clock).widths
        slave.widths := by
    intro another clock same
    rw [hear_widths (same ▸ compatible)]
    exact compatible
  have ready := hear_masterReady compatible
  have obeys : ∀ clock, (slave.obey master clock).widths = slave.widths :=
    fun _ => rfl
  have falls : ∀ clock,
      (fallen (slave.obey master clock)).widths = slave.widths :=
    fun _ => fallen_widths _
  have phases : (0 + 1) % 4 = 1 ∧ (1 + 1) % 4 = 2 ∧ (2 + 1) % 4 = 3 ∧
      (3 + 1) % 4 = 0 := by
    decide
  have clocks : clockIn 1 = .one ∧ clockIn 2 = .zero ∧ clockIn 3 = .zero ∧
      clockIn 0 = .one := by
    decide
  obtain ⟨to1, to2, to3, to0⟩ := phases
  obtain ⟨in1, in2, in3, in0⟩ := clocks
  -- in the first phase the clock stays high
  refine .step (exchange_loops compatible to1
    in1 masterHigh slaveHigh) ?_
  -- in the second one it falls
  refine .step (exchange_loops (widths slave _ rfl) to2
    in2 (by rw [hear_aclk compatible]; nofun) nofun) ?_
  rw [hear_hear compatible (obeys .one), hear_obey, obey_obey
    compatible (ready _), awaitLevel_done (hear_aclk compatible _),
    awaitClock_done obey_aclk,
    Behavior.finish_bind, Behavior.finish_bind]
  -- it stays low
  have low : (fallen (slave.obey master .zero)).aclk = .zero := by
    rw [fallen]
    split <;> rfl
  refine .step (exchange_loops ?_ to3
    in3 (by rw [hear_aclk compatible]; nofun)
    (by rw [low]; nofun)) ?_
  · rw [falls]
    exact widths slave _ rfl
  rw [hear_hear compatible (falls .zero), fallen_obey compatible (ready _)]
  -- and rises
  refine .step (exchange_loops ?_ to0
    in0
    (by rw [hear_aclk ((falls .zero).symm ▸ compatible)]; nofun)
    (by rw [low]; nofun)) ?_
  · rw [falls]
    exact widths _ _ (falls .zero)
  have compatible' : Compatible server master.widths
      (fallen (slave.obey master .zero)).widths :=
    (falls .zero).symm ▸ compatible
  have high : (fallen (slave.obey master .one)).aclk = .one := by
    rw [fallen]
    split <;> rfl
  rw [hear_hear compatible' rfl, hear_congr (fallen_slaveReady .zero .one),
    fallen_obey compatible (hear_masterReady compatible' _),
    awaitLevel_done (hear_aclk ((falls .one).symm ▸ compatible) _),
    awaitClock_done high, Behavior.finish_bind, Behavior.finish_bind]
  exact .refl

/-- The clients of the server, with the slave at the start of its loop. -/
def slaveMeeting
    (server : Widths) :
    Meeting Nat (SimbusAxi4 User) MasterReply (SimbusAxi4 Device)
      SlaveReply Int where
  answer := answer server
  server := 0
  home := slaveLoop.start

/-- A period in which the machine of the slave runs. -/
theorem exchange_edge
    {after : Next Device}
    (compatible : Compatible server master.widths slave.widths)
    (masterHigh : master.aclk ≠ .zero)
    (slaveHigh : slave.aclk ≠ .zero)
    (running : master.aresetN = .one)
    (ran : slaveMachine (slave.obey master .one) = some after) :
    (slaveMeeting server).Ends (axi4NextPosedge.start master) slave
      () (master.hear server slave .one)
      (after.finish.recordEdge
        (slave.obey master .one).toAxi4Signals after.calls) := by
  constructor
  intro Result next
  have notReset : (slave.obey master .one).aresetN ≠ .zero := by
    rw [obey_aresetN, running]
    nofun
  have period := exchange_period next compatible masterHigh slaveHigh
  rw [fallen, if_neg notReset] at period
  have rises : riseAndLoop (slave.obey master .one) =
      slaveLoop.start (after.finish.recordEdge
        (slave.obey master .one).toAxi4Signals after.calls) := by
    simp only [riseAndLoop, afterRise, Program.start_bind,
      Program.start_getState, Behavior.finish_bind, notReset, ↓reduceIte,
      doSlaveMachine, ran]
  rwa [rises] at period

/-- A period in which an assertion of the slave fails. -/
theorem exchange_stuck
    {next : Unit → SimbusAxi4 User →
      Behavior (SimbusAxi4 User) MasterReply Value}
    (compatible : Compatible server master.widths slave.widths)
    (masterHigh : master.aclk ≠ .zero)
    (slaveHigh : slave.aclk ≠ .zero)
    (running : master.aresetN = .one)
    (stuck : slaveMachine (slave.obey master .one) = none) :
    Pair.Reaches (answer server)
      ⟨0, (axi4NextPosedge.start master).bind next, slaveLoop.start slave⟩
      ⟨0, next () (master.hear server slave .one),
        .fail ((slave.obey master .one).recordEdge
          (slave.obey master .one).toAxi4Signals [])⟩ := by
  have notReset : (slave.obey master .one).aresetN ≠ .zero := by
    rw [obey_aresetN, running]
    nofun
  have period := exchange_period next compatible masterHigh slaveHigh
  rw [fallen, if_neg notReset] at period
  have rises : riseAndLoop (slave.obey master .one) =
      .fail ((slave.obey master .one).recordEdge
        (slave.obey master .one).toAxi4Signals []) := by
    simp only [riseAndLoop, afterRise, Program.start_bind,
      Program.start_getState, Behavior.finish_bind, notReset, ↓reduceIte,
      doSlaveMachine, stuck, Behavior.fail_bind]
  rwa [rises] at period

/-- A period in which the slave is reset. -/
theorem exchange_reset
    (compatible : Compatible server master.widths slave.widths)
    (masterHigh : master.aclk ≠ .zero)
    (slaveHigh : slave.aclk ≠ .zero)
    (resets : master.aresetN = .zero) :
    (slaveMeeting server).Ends (axi4NextPosedge.start master) slave
      () (master.hear server (reset (slave.obey master .one)) .one)
      (reset (slave.obey master .one)) := by
  constructor
  intro Result next
  have isReset : (slave.obey master .one).aresetN = .zero := by
    rw [obey_aresetN, resets]
  have period := exchange_period next compatible masterHigh slaveHigh
  rw [fallen, if_pos isReset] at period
  have stillReset : (reset (slave.obey master .one)).aresetN = .zero :=
    isReset
  have rises : riseAndLoop (reset (slave.obey master .one)) =
      slaveLoop.start (reset (slave.obey master .one)) := by
    simp only [riseAndLoop, afterRise, Program.start_bind,
      Program.start_getState, Behavior.finish_bind, stillReset, ↓reduceIte,
      doReset, Program.start_modifyState]
    rfl
  rwa [rises] at period

/-- Widths that do not agree end the exchange for the two. -/
theorem hangs_of_incompatible
    {next : Unit → SimbusAxi4 User →
      Behavior (SimbusAxi4 User) MasterReply Value}
    (differ : ¬ Compatible server master.widths slave.widths)
    (masterHigh : master.aclk ≠ .zero)
    (slaveHigh : slave.aclk ≠ .zero) :
    Pair.Hangs (answer server)
      ⟨0, (axi4NextPosedge.start master).bind next,
        slaveLoop.start slave⟩ := by
  have start : (axi4NextPosedge.start master).bind next =
      ((awaitLevel .zero).start master).bind fun _ master =>
        ((awaitLevel .one).start master).bind next := by
    rw [axi4NextPosedge, Program.start_bind, Behavior.bind_assoc]
  rw [start, start_slaveLoop slaveHigh, awaitLevel_waits masterHigh,
    awaitClock_waits slaveHigh, Behavior.await_bind, Behavior.await_bind]
  cases answered : answer server 0 master slave with
  | none =>
      refine Pair.hangs_of_stop rfl ?_
      simp only [Pair.step, Behavior.run_await_nil, answered,
        Option.map_none]
  | some result =>
      obtain ⟨phase, toMaster, toSlave⟩ := result
      refine Pair.Reaches.hangs (.step (Pair.step_await answered) .refl) ?_
      have shape := answered
      simp only [answer, runRun, Option.ite_none_right_eq_some,
        Option.some.injEq, Prod.mk.injEq] at shape
      obtain ⟨_, rfl, rfl, rfl⟩ := shape
      by_cases byMaster : SimbusAxi4.HasLengths
          (SimbusAxi4.slaveLength master.widths)
          (passToMaster server slave.slaveReady)
      · have bySlave : ¬ SimbusAxi4.HasLengths
            (SimbusAxi4.masterLength slave.widths) master.masterReady :=
          fun bySlave =>
            differ (compatible_of_accepted answered byMaster bySlave)
        simp only [byMaster, bySlave, ↓reduceIte, Behavior.fail_bind]
        have high : (master.sampleMaster .one
            (passToMaster server slave.slaveReady)).aclk ≠ .zero := by
          rw [SimbusAxi4.sampleMaster_eq _ _ _ byMaster]
          intro isZero
          cases isZero
        rw [awaitLevel_waits high, Behavior.await_bind]
        refine Pair.Stuck.hangs (.inr fun _ => ?_) (Behavior.ne_finish rfl)
        intro isWaiting
        cases isWaiting
      · simp only [byMaster, ↓reduceIte, Behavior.fail_bind]
        refine Pair.Stuck.hangs (.inl fun _ => ?_) (Behavior.fail_ne_finish _)
        intro isWaiting
        cases isWaiting

end Exchange

end

end Simbus.Axi4
