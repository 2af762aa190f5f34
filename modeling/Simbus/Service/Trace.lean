import Simbus.BusClock
import Simbus.Service.Run
import Mathlib

/-!
# The trace of the server

All buses write their signals to one trace file.  Before a bus runs, the time
of the file is set to that of the bus; the values that a bus writes when it is
assembled come without a time of their own.  The buses of one turn run in the
order of their times.
-/

namespace Simbus.Service

/-! ## The file -/

/-- What happens to the file. -/
inductive TraceEvent where
  /-- `lxt2_wr_set_time`, whose argument has 32 bits. -/
  | setTime (time : BitVec 32)
  /-- A bus writes values that stand from its own time on. -/
  | emit (port : String) (time : Nat)
  deriving DecidableEq

/-- `SERVICE_TIME_PRECISION`. -/
def serviceTimePrecision : Int := -10

/-- The time that has been set last; `service_init` sets it to 0. -/
def lastTime (log : List TraceEvent) : BitVec 32 :=
  log.foldl
    (fun time event =>
      match event with
      | .setTime next => next
      | .emit _ _ => time)
    0

/-- The times that have been set. -/
def timesSet (log : List TraceEvent) : List (BitVec 32) :=
  log.filterMap fun
    | .setTime time => some time
    | .emit _ _ => none

/-- The time never goes back, and every bus writes under its own time. -/
structure OrderlyTrace (log : List TraceEvent) : Prop where
  increases : (timesSet log).Pairwise (· ≤ ·)
  emits : ∀ before port time after,
    log = before ++ .emit port time :: after →
    (lastTime before).toNat = time

/-- The time of a bus in units of the file, with the rounding of the server. -/
def traceTime (time : SimTime) : Nat :=
  ((time.mant.toNat + 5) / 10 + 5) / 10

/-! ## The server -/

/-- The server with the clocks of its buses and the trace file. -/
structure TracedServer where
  server : Server
  clocks : String → BusClock
  log : List TraceEvent

/-- What the constructors of the protocols set up, PCI with its own table. -/
def initialClock (clockPhaseMap : Fin 4 → BitVec 64) : BusClock where
  phase := 0
  clockPhaseMap := clockPhaseMap
  time := .zero

/-- The server as it starts. -/
def TracedServer.init
    (clockPhaseMaps : String → Fin 4 → BitVec 64) : TracedServer where
  server := .init
  clocks := fun port => initialClock (clockPhaseMaps port)
  log := []

/-- `service_run` before a bus runs, and what the bus writes then. -/
def runEvents (clocks : String → BusClock) (port : String) : List TraceEvent :=
  [.setTime (((clocks port).time.unitsValue serviceTimePrecision).setWidth 32),
    .emit port (traceTime (clocks port).time)]

/-- What a bus writes when it is assembled. -/
def initEvent (clocks : String → BusClock) (port : String) : TraceEvent :=
  .emit port (traceTime (clocks port).time)

/-- The buses that are assembled at the end of a turn. -/
def assembled (config : Config) (server : Server) : List String :=
  config.ports.filter fun port =>
    (server.busMap port).needInitialization &&
      (scanDevices (config.devices port) (server.busMap port)).1

/-- `peek_time` of the buses, whose times all count ps. -/
def peekTimes (clocks : String → BusClock) (port : String) : Nat :=
  (clocks port).time.mant.toNat

/-- The server after the initializations of a turn. -/
def initializeBuses (config : Config) (server : Server) : Server :=
  updateBuses (fun port => initializeBus (config.devices port)) config.ports
    server

/-- The initializations and runs at the end of a turn, with their traces. -/
def runTraced
    (config : Config)
    (traced : TracedServer)
    (server : Server) : TracedServer :=
  let times := peekTimes traced.clocks
  let running := runList config times (initializeBuses config server)
  { server := runBuses config times server
    clocks := fun port =>
      if port ∈ running then
        (traced.clocks port).advanceBusClock
      else
        traced.clocks port
    log := traced.log ++
      (assembled config server).map (initEvent traced.clocks) ++
      running.flatMap (runEvents traced.clocks) }

/-- What a turn accepts and reads, before it initializes and runs buses. -/
def heard
    (config : Config)
    (server : Server)
    (input : Selection) : Option Server :=
  readAll config (selected server) input.reads
    (acceptAll config input.accepted server)

/-- One turn of the loop of `service_run`. -/
def tracedRound
    (config : Config)
    (traced : TracedServer)
    (input : Selection) : Option TracedServer :=
  (heard config traced.server input).map (runTraced config traced)

/-- The server after a number of turns. -/
def tracedRun
    (config : Config)
    (clockPhaseMaps : String → Fin 4 → BitVec 64)
    (inputs : Nat → Selection) : Nat → Option TracedServer
  | 0 => some (.init clockPhaseMaps)
  | step + 1 =>
      (tracedRun config clockPhaseMaps inputs step).bind fun traced =>
        tracedRound config traced (inputs step)

/-! ## The same turns without the trace -/

/-- The trace does not change what the server does. -/
theorem tracedRound_server
    {config : Config}
    {traced next : TracedServer}
    {input : Selection}
    (ran : tracedRound config traced input = some next) :
    serviceRound config traced.server
        { input with peekTime := peekTimes traced.clocks } =
      some next.server := by
  rw [tracedRound, heard, Option.map_eq_some_iff] at ran
  obtain ⟨server, didRead, rfl⟩ := ran
  rw [serviceRound, Option.map_eq_some_iff]
  exact ⟨server, didRead, rfl⟩

/-! ## Times -/

/-- A time of a bus: it counts ps, or nothing has happened yet. -/
def CountsPs (time : SimTime) : Prop :=
  time = .zero ∨ time.exp = -12

theorem CountsPs.add
    {time : SimTime}
    (counts : CountsPs time)
    (mant : BitVec 64) :
    CountsPs (time.add ⟨mant, -12⟩) := by
  right
  rcases counts with rfl | isPs
  · rfl
  · rw [SimTime.add, isPs]
    rfl

/-- The order of the run list is that of `operator <`. -/
theorem CountsPs.before_iff
    {time that : SimTime}
    (counts : CountsPs time)
    (countsThat : CountsPs that) :
    time.before that = true ↔ time.mant.toNat < that.mant.toNat := by
  obtain ⟨mant, exp⟩ := time
  obtain ⟨mant', exp'⟩ := that
  rw [SimTime.before, decide_eq_true_iff]
  rcases counts with isZero | rfl <;> rcases countsThat with isZero' | rfl
  · cases isZero
    cases isZero'
    rfl
  · cases isZero
    change rescale _ 0 < mant' ↔ _
    rw [rescale_zero]
    rfl
  · cases isZero'
    change mant < rescale _ 0 ↔ _
    rw [rescale_zero]
    rfl
  · rfl

/-- The time that is set is that of the bus while it fits into 32 bits. -/
theorem CountsPs.setTime_iff
    {time : SimTime}
    (counts : CountsPs time) :
    ((time.unitsValue serviceTimePrecision).setWidth 32).toNat =
        traceTime time ↔
      traceTime time < 2 ^ 32 := by
  constructor
  · intro isTime
    rw [← isTime]
    exact BitVec.isLt _
  · intro fits
    rcases counts with rfl | isPs
    · rfl
    · obtain ⟨mant, exp⟩ := time
      subst isPs
      change ((((mant + 5) / 10 + 5) / 10).setWidth 32).toNat = _
      change ((mant.toNat + 5) / 10 + 5) / 10 < 2 ^ 32 at fits
      change _ = ((mant.toNat + 5) / 10 + 5) / 10
      have five : (5 : BitVec 64).toNat = 5 := rfl
      have ten : (10 : BitVec 64).toNat = 10 := rfl
      have once : ((mant + 5) / 10).toNat = (mant.toNat + 5) / 10 := by
        rw [BitVec.toNat_udiv, BitVec.toNat_add, five, ten]
        omega
      rw [BitVec.toNat_setWidth, BitVec.toNat_udiv, BitVec.toNat_add, once,
        five, ten]
      omega

/-! ## Orderly traces -/

section

variable {log : List TraceEvent}

theorem lastTime_append (log events : List TraceEvent) :
    lastTime (log ++ events) =
      events.foldl
        (fun time event =>
          match event with
          | .setTime next => next
          | .emit _ _ => time)
        (lastTime log) := by
  rw [lastTime, List.foldl_append]
  rfl

@[simp]
theorem lastTime_setTime (log : List TraceEvent) (time : BitVec 32) :
    lastTime (log ++ [.setTime time]) = time := by
  rw [lastTime_append]
  rfl

@[simp]
theorem lastTime_emit
    (log : List TraceEvent)
    (port : String)
    (time : Nat) :
    lastTime (log ++ [.emit port time]) = lastTime log := by
  rw [lastTime_append]
  rfl

/-- The time set last is one of the times that have been set. -/
theorem lastTime_mem (log : List TraceEvent) :
    lastTime log = 0 ∨ lastTime log ∈ timesSet log := by
  induction log using List.reverseRecOn with
  | nil =>
      exact .inl rfl
  | append_singleton log event inductionHypothesis =>
      rw [timesSet, List.filterMap_append]
      match event with
      | .setTime time =>
          right
          rw [lastTime_setTime]
          exact List.mem_append_right _ (List.mem_singleton_self time)
      | .emit port time =>
          rw [lastTime_emit]
          rcases inductionHypothesis with isZero | isSet
          · exact .inl isZero
          · exact .inr (List.mem_append_left _ isSet)

/-- No time that has been set is after the one set last. -/
theorem OrderlyTrace.le_lastTime
    (increases : (timesSet log).Pairwise (· ≤ ·)) :
    ∀ time ∈ timesSet log, time ≤ lastTime log := by
  induction log using List.reverseRecOn with
  | nil =>
      nofun
  | append_singleton log event inductionHypothesis =>
      intro time isSet
      rw [timesSet, List.filterMap_append] at increases isSet
      rw [List.pairwise_append] at increases
      obtain ⟨earlier, _, across⟩ := increases
      rw [List.mem_append] at isSet
      match event with
      | .setTime next =>
          rw [lastTime_setTime]
          rcases isSet with before | isNext
          · exact across time before next (List.mem_singleton_self next)
          · rw [List.eq_of_mem_singleton isNext]
            exact BitVec.le_refl next
      | .emit port _ =>
          rw [lastTime_emit]
          rcases isSet with before | nothing
          · exact inductionHypothesis earlier time before
          · cases nothing

/-- A prefix of an orderly trace is orderly. -/
theorem OrderlyTrace.of_append
    {events : List TraceEvent}
    (orderly : OrderlyTrace (log ++ events)) :
    OrderlyTrace log where
  increases := by
    have increases := orderly.increases
    rw [timesSet, List.filterMap_append, List.pairwise_append] at increases
    exact increases.1
  emits := by
    rintro before port time after rfl
    refine orderly.emits before port time (after ++ events) ?_
    rw [List.append_assoc, List.cons_append]

/-- Setting the time keeps a trace orderly if it does not go back. -/
theorem orderly_setTime_iff (time : BitVec 32) :
    OrderlyTrace (log ++ [.setTime time]) ↔
      OrderlyTrace log ∧ lastTime log ≤ time := by
  constructor
  · intro orderly
    refine ⟨orderly.of_append, ?_⟩
    rcases lastTime_mem log with isZero | isSet
    · rw [isZero]
      exact BitVec.le_def.mpr (Nat.zero_le _)
    · have increases := orderly.increases
      rw [timesSet, List.filterMap_append, List.pairwise_append]
        at increases
      exact increases.2.2 _ isSet time (List.mem_singleton_self time)
  · rintro ⟨orderly, notBack⟩
    constructor
    · rw [timesSet, List.filterMap_append, List.pairwise_append]
      refine ⟨orderly.increases, List.pairwise_singleton _ _, ?_⟩
      intro earlier isSet next isNext
      rw [List.eq_of_mem_singleton isNext]
      exact BitVec.le_trans
        (OrderlyTrace.le_lastTime orderly.increases earlier isSet) notBack
    · intro before port emitted after split
      rcases List.eq_nil_or_concat after with rfl | ⟨after, last, rfl⟩
      · have ends := List.append_inj_right' split rfl
        cases ends
      · rw [List.concat_eq_append, ← List.cons_append, ← List.append_assoc]
          at split
        exact orderly.emits before port emitted after
          (List.append_inj_left' split rfl)

/-- A bus writes in order if the time that was set last is its own. -/
theorem orderly_emit_iff (port : String) (time : Nat) :
    OrderlyTrace (log ++ [.emit port time]) ↔
      OrderlyTrace log ∧ (lastTime log).toNat = time := by
  constructor
  · intro orderly
    exact ⟨orderly.of_append, orderly.emits log port time [] rfl⟩
  · rintro ⟨orderly, ownTime⟩
    constructor
    · rw [timesSet, List.filterMap_append]
      change (timesSet log ++ []).Pairwise _
      rw [List.append_nil]
      exact orderly.increases
    · intro before port' emitted after split
      rcases List.eq_nil_or_concat after with rfl | ⟨after, last, rfl⟩
      · have starts := List.append_inj_left' split rfl
        have ends := List.append_inj_right' split rfl
        cases ends
        rw [← starts]
        exact ownTime
      · rw [List.concat_eq_append, ← List.cons_append, ← List.append_assoc]
          at split
        exact orderly.emits before port' emitted after
          (List.append_inj_left' split rfl)

/-- What the buses write when they are assembled. -/
theorem orderly_inits_iff
    {clocks : String → BusClock}
    {ports : List String}
    (unstarted : ∀ port ∈ ports, (clocks port).time = .zero) :
    (OrderlyTrace (log ++ ports.map (initEvent clocks)) ↔
        OrderlyTrace log ∧ ∀ port ∈ ports, lastTime log = 0) ∧
      lastTime (log ++ ports.map (initEvent clocks)) = lastTime log := by
  induction ports using List.reverseRecOn with
  | nil =>
      rw [List.map_nil, List.append_nil]
      exact ⟨⟨fun orderly => ⟨orderly, nofun⟩, And.left⟩, rfl⟩
  | append_singleton ports port inductionHypothesis =>
      obtain ⟨orderlyBefore, lastBefore⟩ := inductionHypothesis
        fun port isPort => unstarted port (List.mem_append_left _ isPort)
      have isZero := unstarted port
        (List.mem_append_right _ (List.mem_singleton_self port))
      have atZero : traceTime (clocks port).time = 0 := by
        rw [isZero]
        rfl
      have zero : (lastTime log).toNat = 0 ↔ lastTime log = 0 := by
        rw [← BitVec.toNat_inj]
        rfl
      rw [List.map_append, List.map_singleton, ← List.append_assoc, initEvent,
        orderly_emit_iff, lastTime_emit, lastBefore, orderlyBefore, atZero,
        zero]
      refine ⟨?_, rfl⟩
      constructor
      · rintro ⟨⟨orderly, _⟩, last⟩
        exact ⟨orderly, fun _ _ => last⟩
      · rintro ⟨orderly, atStart⟩
        refine ⟨⟨orderly, fun port isPort => ?_⟩, ?_⟩
        · exact atStart port (List.mem_append_left _ isPort)
        · exact atStart port
            (List.mem_append_right _ (List.mem_singleton_self port))

/-- A bus runs in order if its time is not behind and fits into 32 bits. -/
theorem orderly_run_iff
    {clocks : String → BusClock}
    {port : String}
    (counts : CountsPs (clocks port).time) :
    (OrderlyTrace (log ++ runEvents clocks port) ↔
      OrderlyTrace log ∧
        (lastTime log).toNat ≤ traceTime (clocks port).time ∧
        traceTime (clocks port).time < 2 ^ 32) ∧
    (traceTime (clocks port).time < 2 ^ 32 →
      (lastTime (log ++ runEvents clocks port)).toNat =
        traceTime (clocks port).time) := by
  have split : log ++ runEvents clocks port =
      log ++ [.setTime
        (((clocks port).time.unitsValue serviceTimePrecision).setWidth 32)] ++
      [.emit port (traceTime (clocks port).time)] := by
    rw [List.append_assoc]
    rfl
  rw [split]
  constructor
  · rw [orderly_emit_iff, orderly_setTime_iff, lastTime_setTime,
      counts.setTime_iff]
    constructor
    · rintro ⟨⟨orderly, notBack⟩, fits⟩
      rw [BitVec.le_def, counts.setTime_iff.mpr fits] at notBack
      exact ⟨orderly, notBack, fits⟩
    · rintro ⟨orderly, notBack, fits⟩
      refine ⟨⟨orderly, ?_⟩, fits⟩
      rw [BitVec.le_def, counts.setTime_iff.mpr fits]
      exact notBack
  · rw [lastTime_emit, lastTime_setTime]
    exact counts.setTime_iff.mpr

/-- The buses of one turn run in the order of their times. -/
theorem orderly_runs_iff
    {clocks : String → BusClock}
    (counts : ∀ port, CountsPs (clocks port).time)
    {running : List String}
    (inOrder : running.Pairwise fun first later =>
      peekTimes clocks first ≤ peekTimes clocks later) :
    OrderlyTrace (log ++ running.flatMap (runEvents clocks)) ↔
      OrderlyTrace log ∧ ∀ port ∈ running,
        (lastTime log).toNat ≤ traceTime (clocks port).time ∧
          traceTime (clocks port).time < 2 ^ 32 := by
  induction running generalizing log with
  | nil =>
      rw [List.flatMap_nil, List.append_nil]
      exact ⟨fun orderly => ⟨orderly, nofun⟩, And.left⟩
  | cons first rest inductionHypothesis =>
      rw [List.pairwise_cons] at inOrder
      obtain ⟨isFirst, restInOrder⟩ := inOrder
      obtain ⟨orderlyRun, lastRun⟩ := orderly_run_iff (counts first)
      rw [List.flatMap_cons, ← List.append_assoc,
        inductionHypothesis restInOrder, orderlyRun, List.forall_mem_cons]
      have later : ∀ port ∈ rest,
          traceTime (clocks first).time ≤ traceTime (clocks port).time := by
        intro port isLater
        have notBefore := isFirst port isLater
        rw [traceTime, traceTime]
        exact Nat.div_le_div_right (Nat.add_le_add_right
          (Nat.div_le_div_right (Nat.add_le_add_right notBefore 5)) 5)
      constructor
      · rintro ⟨⟨orderly, notBack, fits⟩, restInTime⟩
        refine ⟨orderly, ⟨notBack, fits⟩, fun port isLater => ?_⟩
        exact ⟨Nat.le_trans notBack (later port isLater),
          (restInTime port isLater).2⟩
      · rintro ⟨orderly, ⟨notBack, fits⟩, restInTime⟩
        refine ⟨⟨orderly, notBack, fits⟩, fun port isLater => ?_⟩
        rw [lastRun fits]
        exact ⟨later port isLater, (restInTime port isLater).2⟩

end

/-! ## One turn -/

section

variable {config : Config}
variable {server server' : Server}

/-- Which buses wait for their initialization stays the same. -/
def SameWaiting (server server' : Server) : Prop :=
  ∀ port, (server'.busMap port).needInitialization =
    (server.busMap port).needInitialization

theorem SameWaiting.updateBus
    (same : SameWaiting server server')
    {change : BusState → BusState}
    (keeps : ∀ bus,
      (change bus).needInitialization = bus.needInitialization)
    (port : String) :
    SameWaiting server (server'.updateBus port change) := by
  intro other
  rw [← same other]
  by_cases isPort : other = port
  · subst isPort
    rw [Server.updateBus_self]
    exact keeps _
  · rw [server'.updateBus_other change isPort]

theorem processClientCommand_waiting
    (fd : Nat)
    (client : ClientState)
    (line : Line) :
    SameWaiting server
      (processClientCommand config server fd client line) := by
  have same : SameWaiting server (server.setClient fd client) :=
    fun _ => rfl
  unfold processClientCommand
  split
  · unfold processClientHello
    split
    · apply SameWaiting.updateBus
      · exact fun _ => rfl
      · exact fun _ => rfl
    · exact same
  · exact same
  · exact same
  · apply same.updateBus
    exact fun _ => rfl
  · apply same.updateBus
    exact fun _ => rfl

theorem recordLeave_waiting
    (same : SameWaiting server server')
    (fd : Nat)
    (received : List Line) :
    SameWaiting server (recordLeave fd received server') := by
  unfold recordLeave
  split
  · split
    · apply same.updateBus
      exact fun _ => rfl
    · exact same
  · exact same

theorem readFromSocket_waiting
    {fd : Nat}
    {client : ClientState}
    {result : ReadResult}
    (didRead : readFromSocket config server fd client result =
      some server') :
    SameWaiting server server' := by
  unfold readFromSocket at didRead
  split at didRead
  · split at didRead
    · cases didRead
    · cases didRead
      apply SameWaiting.updateBus
      · exact fun _ => rfl
      · exact fun _ => rfl
  · split at didRead
    · cases didRead
      exact fun _ => rfl
    · cases didRead
      exact recordLeave_waiting (processClientCommand_waiting _ _ _) _ _

theorem readAll_waiting
    {isSet : Nat → Bool}
    {reads : List (Nat × ReadResult)}
    (didRead : readAll config isSet reads server = some server') :
    SameWaiting server server' := by
  induction reads generalizing server with
  | nil =>
      cases didRead
      exact fun _ => rfl
  | cons first rest inductionHypothesis =>
      obtain ⟨fd, result⟩ := first
      rw [readAll, Option.bind_eq_some_iff] at didRead
      obtain ⟨middle, readFirst, readRest⟩ := didRead
      have same : SameWaiting server middle := by
        unfold readOn at readFirst
        split at readFirst
        · cases readFirst
          exact fun _ => rfl
        · split at readFirst
          · exact readFromSocket_waiting readFirst
          · cases readFirst
            exact fun _ => rfl
      intro port
      exact (inductionHypothesis readRest port).trans (same port)

/-- A turn accepts and reads without initializing a bus. -/
theorem heard_waiting
    {input : Selection}
    (didHear : heard config server input = some server') :
    SameWaiting server server' := by
  have accepts : ∀ ports : List String, ∀ server : Server,
      SameWaiting server
        (ports.foldl (acceptOn input.accepted) server) := by
    intro ports
    induction ports with
    | nil =>
        exact fun _ _ => rfl
    | cons port rest inductionHypothesis =>
        intro server other
        rw [List.foldl_cons, inductionHypothesis _ other, acceptOn_busMap]
  intro port
  exact (readAll_waiting didHear port).trans (accepts config.ports server port)

/-! ## Initializations and runs -/

/-- All devices of a bus are ready. -/
def AllReady (config : Config) (server : Server) (port : String) : Prop :=
  ∀ dev ∈ config.devices port,
    ((server.busMap port).deviceMap dev).readyFlag = true

theorem scanDevices_fst_iff
    (devices : List String)
    (bus : BusState) :
    (scanDevices devices bus).1 = true ↔
      ∀ dev ∈ devices, (bus.deviceMap dev).readyFlag = true := by
  constructor
  · intro passes
    exact (scanDevices_passes passes).1
  · intro ready
    induction devices generalizing bus with
    | nil =>
        rfl
    | cons dev rest inductionHypothesis =>
        rw [List.forall_mem_cons] at ready
        rw [scanDevices, if_pos ready.1]
        apply inductionHypothesis
        split <;> exact ready.2

theorem initializeBuses_busMap (server : Server) (port : String) :
    (initializeBuses config server).busMap port =
      if port ∈ config.ports then
        initializeBus (config.devices port) (server.busMap port)
      else
        server.busMap port :=
  updateBuses_busMap _ config.portsDistinct server port

/-- The initialization leaves the plugs alone. -/
theorem initializeBus_deviceMap (devices : List String) (bus : BusState) :
    (initializeBus devices bus).deviceMap = bus.deviceMap := by
  obtain ⟨finished, shape, _⟩ := scanDevices_shape devices bus
  unfold initializeBus
  split
  · simp only
    rw [shape]
    split <;> rfl
  · rfl

/-- A bus waits no longer once its devices are ready. -/
theorem initializeBus_waiting (devices : List String) (bus : BusState) :
    (initializeBus devices bus).needInitialization =
      (bus.needInitialization && !(scanDevices devices bus).1) := by
  obtain ⟨finished, shape, _⟩ := scanDevices_shape devices bus
  unfold initializeBus
  split
  · rename_i waits
    rw [waits]
    simp only
    rw [shape]
    split
    · rename_i passes
      rw [passes]
      rfl
    · rename_i fails
      rw [Bool.not_eq_true] at fails
      rw [fails]
      exact waits
  · rename_i started
    rw [Bool.not_eq_true] at started
    rw [started]
    rfl

/-- The buses that run are those whose devices are all ready. -/
theorem mem_runList_iff (peekTime : String → Nat) (port : String) :
    port ∈ runList config peekTime (initializeBuses config server) ↔
      port ∈ config.ports ∧ AllReady config server port := by
  rw [runList, List.mem_insertionSort, List.mem_filter]
  apply and_congr_right
  intro isPort
  have passes : (scanDevices (config.devices port)
      (initializeBus (config.devices port) (server.busMap port))).1 = true ↔
        AllReady config server port := by
    rw [scanDevices_fst_iff, initializeBus_deviceMap]
    rfl
  rw [initializeBuses_busMap, if_pos isPort, canRun, Bool.and_eq_true, passes]
  constructor
  · exact And.right
  · intro ready
    refine ⟨?_, ready⟩
    rw [initializeBus_waiting,
      (scanDevices_fst_iff _ (server.busMap port)).mpr ready, Bool.not_true,
      Bool.and_false]
    rfl

theorem mem_assembled_iff (port : String) :
    port ∈ assembled config server ↔
      port ∈ config.ports ∧
        (server.busMap port).needInitialization = true ∧
        AllReady config server port := by
  rw [assembled, List.mem_filter, Bool.and_eq_true, scanDevices_fst_iff]
  rfl

/-- Passes over the buses that leave their flags. -/
theorem updateBuses_waiting
    (same : SameWaiting server server')
    {change : String → BusState → BusState}
    (keeps : ∀ port bus,
      (change port bus).needInitialization = bus.needInitialization)
    (ports : List String) :
    SameWaiting server (updateBuses change ports server') := by
  induction ports generalizing server' with
  | nil =>
      exact same
  | cons port rest inductionHypothesis =>
      exact inductionHypothesis (same.updateBus (keeps port) port)

theorem checkBus_waiting (devices : List String) (bus : BusState) :
    (checkBus devices bus).needInitialization = bus.needInitialization := by
  obtain ⟨finished, shape, _⟩ := scanDevices_shape devices bus
  unfold checkBus
  split
  · rfl
  · rw [shape]

theorem busReady_waiting (devices : List String) (bus : BusState) :
    (busReady devices bus).needInitialization = bus.needInitialization := by
  unfold busReady
  simp only
  split <;> rfl

/-- Only an initialization ends the wait of a bus. -/
theorem runBuses_waiting
    (peekTime : String → Nat)
    {port : String}
    (waits : ((runBuses config peekTime server).busMap
      port).needInitialization = true) :
    (server.busMap port).needInitialization = true ∧
      (port ∈ config.ports → ¬ AllReady config server port) := by
  have same : SameWaiting (initializeBuses config server)
      (runBuses config peekTime server) := by
    apply updateBuses_waiting
    · apply updateBuses_waiting
      · exact fun _ => rfl
      · exact fun port => checkBus_waiting (config.devices port)
    · exact fun port => busReady_waiting (config.devices port)
  have initialized := waits
  rw [same port] at initialized
  rw [initializeBuses_busMap] at initialized
  split at initialized
  · rw [initializeBus_waiting, Bool.and_eq_true, Bool.not_eq_true'] at initialized
    refine ⟨initialized.1, fun _ ready => ?_⟩
    have passes := (scanDevices_fst_iff _ (server.busMap port)).mpr ready
    rw [initialized.2] at passes
    cases passes
  · rename_i unknown
    exact ⟨initialized, fun isPort => absurd isPort unknown⟩

/-! ## Runs -/

/-- The clocks of the buses in a run. -/
structure ClocksInvariant (traced : TracedServer) : Prop where
  counts : ∀ port, CountsPs (traced.clocks port).time
  unstarted : ∀ port,
    (traced.server.busMap port).needInitialization = true →
    (traced.clocks port).time = .zero

/--
What a turn must be like for the trace: no bus is assembled after the start of
the trace, and no bus runs that is behind the trace or whose time is too large.
-/
structure Punctual
    (config : Config)
    (traced : TracedServer)
    (server : Server) : Prop where
  atStart : ∀ port ∈ config.ports,
    (server.busMap port).needInitialization = true →
    AllReady config server port →
    lastTime traced.log = 0
  inTime : ∀ port ∈ config.ports,
    AllReady config server port →
    (lastTime traced.log).toNat ≤ traceTime (traced.clocks port).time ∧
      traceTime (traced.clocks port).time < 2 ^ 32

/-- One turn keeps the invariant of the clocks. -/
theorem ClocksInvariant.runTraced
    {traced : TracedServer}
    (invariant : ClocksInvariant traced)
    (same : SameWaiting traced.server server) :
    ClocksInvariant (runTraced config traced server) where
  counts := by
    intro port
    change CountsPs (if port ∈ runList config (peekTimes traced.clocks)
      (initializeBuses config server) then _ else _ : BusClock).time
    split
    · exact (invariant.counts port).add _
    · exact invariant.counts port
  unstarted := by
    intro port waits
    obtain ⟨waited, notReady⟩ := runBuses_waiting _ waits
    have notRunning : port ∉ runList config (peekTimes traced.clocks)
        (initializeBuses config server) := by
      rw [mem_runList_iff]
      rintro ⟨isPort, ready⟩
      exact notReady isPort ready
    change (if port ∈ runList config (peekTimes traced.clocks)
      (initializeBuses config server) then _ else _ : BusClock).time = _
    rw [if_neg notRunning]
    rw [same port] at waited
    exact invariant.unstarted port waited

/-- One turn keeps the trace orderly exactly if it is punctual. -/
theorem orderly_runTraced_iff
    {traced : TracedServer}
    (invariant : ClocksInvariant traced)
    (same : SameWaiting traced.server server) :
    OrderlyTrace (runTraced config traced server).log ↔
      OrderlyTrace traced.log ∧ Punctual config traced server := by
  have unstarted : ∀ port ∈ assembled config server,
      (traced.clocks port).time = .zero := by
    intro port isAssembled
    have waits := (mem_assembled_iff port).mp isAssembled
    apply invariant.unstarted port
    rw [← same port]
    exact waits.2.1
  have inOrder : (runList config (peekTimes traced.clocks)
      (initializeBuses config server)).Pairwise fun first later =>
        peekTimes traced.clocks first ≤ peekTimes traced.clocks later :=
    List.pairwise_insertionSort _ _
  obtain ⟨orderlyInits, lastInits⟩ :=
    @orderly_inits_iff traced.log _ _ unstarted
  change OrderlyTrace (traced.log ++ _ ++ _) ↔ _
  rw [orderly_runs_iff invariant.counts inOrder, orderlyInits, lastInits,
    and_assoc]
  apply and_congr_right
  intro _
  constructor
  · rintro ⟨atStart, inTime⟩
    constructor
    · intro port isPort waits ready
      exact atStart port ((mem_assembled_iff port).mpr ⟨isPort, waits, ready⟩)
    · intro port isPort ready
      exact inTime port ((mem_runList_iff _ port).mpr ⟨isPort, ready⟩)
  · rintro ⟨atStart, inTime⟩
    constructor
    · intro port isAssembled
      obtain ⟨isPort, waits, ready⟩ := (mem_assembled_iff port).mp isAssembled
      exact atStart port isPort waits ready
    · intro port running
      obtain ⟨isPort, ready⟩ := (mem_runList_iff _ port).mp running
      exact inTime port isPort ready

variable {clockPhaseMaps : String → Fin 4 → BitVec 64}
variable {inputs : Nat → Selection}

theorem tracedRun_clocks
    {steps : Nat}
    {traced : TracedServer}
    (reached : tracedRun config clockPhaseMaps inputs steps = some traced) :
    ClocksInvariant traced := by
  induction steps generalizing traced with
  | zero =>
      cases reached
      exact ⟨fun _ => .inl rfl, fun _ _ => rfl⟩
  | succ steps inductionHypothesis =>
      rw [tracedRun, Option.bind_eq_some_iff] at reached
      obtain ⟨before, earlier, ran⟩ := reached
      rw [tracedRound, Option.map_eq_some_iff] at ran
      obtain ⟨server, didHear, rfl⟩ := ran
      exact (inductionHypothesis earlier).runTraced (heard_waiting didHear)

/--
The trace of a run is orderly in every state that is reached exactly if all
turns are punctual.
-/
theorem trace_orderly_iff :
    (∀ steps traced,
      tracedRun config clockPhaseMaps inputs steps = some traced →
      OrderlyTrace traced.log) ↔
    ∀ step traced server,
      tracedRun config clockPhaseMaps inputs step = some traced →
      heard config traced.server (inputs step) = some server →
      Punctual config traced server := by
  constructor
  · intro orderly step traced server reached didHear
    have invariant := tracedRun_clocks reached
    have ran : tracedRun config clockPhaseMaps inputs (step + 1) =
        some (runTraced config traced server) := by
      rw [tracedRun, reached, Option.bind_some, tracedRound, didHear]
      rfl
    exact ((orderly_runTraced_iff invariant (heard_waiting didHear)).mp
      (orderly (step + 1) _ ran)).2
  · intro punctual steps
    induction steps with
    | zero =>
        intro traced reached
        cases reached
        constructor
        · exact List.Pairwise.nil
        · intro before port time after split
          exact absurd split (List.append_ne_nil_of_right_ne_nil _
            (List.cons_ne_nil _ _)).symm
    | succ steps inductionHypothesis =>
        intro traced reached
        rw [tracedRun, Option.bind_eq_some_iff] at reached
        obtain ⟨before, earlier, ran⟩ := reached
        rw [tracedRound, Option.map_eq_some_iff] at ran
        obtain ⟨server, didHear, rfl⟩ := ran
        rw [orderly_runTraced_iff (tracedRun_clocks earlier)
          (heard_waiting didHear)]
        exact ⟨inductionHypothesis before earlier,
          punctual steps before server earlier didHear⟩

end

/-! ## Two buses of different speeds -/

/-- `clock_phase_map33` of PCI. -/
def clockPhaseMap33 : Fin 4 → BitVec 64
  | 0 => 2000
  | 1 => 13000
  | 2 => 13000
  | 3 => 2000

/-- `clock_phase_map66` of PCI. -/
def clockPhaseMap66 : Fin 4 → BitVec 64
  | 0 => 2000
  | 1 => 5500
  | 2 => 5500
  | 3 => 2000

/-- Two PCI buses with a host each. -/
def twoBuses : Config where
  ports := ["tcp:33", "tcp:66"]
  portsDistinct := by decide
  devices := fun _ => ["host"]

/-- One of the buses has `bus_speed` 66. -/
def twoSpeeds (port : String) : Fin 4 → BitVec 64 :=
  if port = "tcp:66" then clockPhaseMap66 else clockPhaseMap33

/-- Both hosts start together, and then that of the slower bus goes ahead. -/
def slowerAhead : Nat → Selection
  | 0 =>
      { accepted := fun port => if port = "tcp:66" then some 4 else some 3
        reads := []
        readsSorted := .nil
        peekTime := fun _ => 0 }
  | 1 =>
      { accepted := fun _ => none
        reads := [(3, .lines [.hello "host"]), (4, .lines [.hello "host"])]
        readsSorted := by simp
        peekTime := fun _ => 0 }
  | 2 =>
      { accepted := fun _ => none
        reads := [(3, .lines [.ready]), (4, .lines [.ready])]
        readsSorted := by simp
        peekTime := fun _ => 0 }
  | 3 => turn none 3 [.ready]
  | _ => turn none 4 [.ready]

/-- The second bus takes the time of the trace from 13 ns back to 5.5 ns. -/
theorem slowerAhead_not_orderly :
    ∃ traced, tracedRun twoBuses twoSpeeds slowerAhead 5 = some traced ∧
      timesSet traced.log = [0, 0, 130, 55] ∧
      ¬ OrderlyTrace traced.log := by
  have evaluated : (tracedRun twoBuses twoSpeeds slowerAhead 5).map
      (fun traced => timesSet traced.log) = some [0, 0, 130, 55] := by
    decide +kernel
  obtain ⟨traced, reached, times⟩ := Option.map_eq_some_iff.mp evaluated
  refine ⟨traced, reached, times, fun orderly => ?_⟩
  have increases := orderly.increases
  rw [times] at increases
  revert increases
  decide

end Simbus.Service
