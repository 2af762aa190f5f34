import Simbus.Service.DumpClock
import Mathlib

/-!
# What the server does to the trace file

Turn after turn, the server assembles the buses whose devices are all ready, and
runs the buses in the order of their times.  A server with one bus does nothing
else to the file than assemble the bus and run it, each time a phase later.  With
several buses the file still shows that of the first one, while no time goes back.
-/

set_option autoImplicit false

namespace Simbus.Service

open Lxt2 (Trace readFile)

/-- The server with how often its buses have run and what it has done to the file. -/
structure DumpedServer where
  traced : TracedServer
  ran : String → Nat
  events : List DumpEvent

/-- The server as it starts. -/
def DumpedServer.init
    (clockPhaseMaps : String → Fin 4 → BitVec 64) : DumpedServer where
  traced := .init clockPhaseMaps
  ran := fun _ => 0
  events := []

/-- The initializations and runs at the end of a turn, with the file. -/
def runDumped
    (config : Config)
    (samples : String → Nat → List Sample)
    (dumped : DumpedServer)
    (server : Server) : DumpedServer :=
  let clocks := dumped.traced.clocks
  let running := runList config (peekTimes clocks) (initializeBuses config server)
  { traced := runTraced config dumped.traced server
    ran := fun port =>
      if port ∈ running then dumped.ran port + 1 else dumped.ran port
    events := dumped.events ++
      (assembled config server).map .assemblyComplete ++
      running.map fun port =>
        .busReady port
          (((clocks port).time.unitsValue serviceTimePrecision).setWidth 32)
          (samples port (dumped.ran port)) }

/-- The server after a number of turns. -/
def dumpedRun
    (config : Config)
    (clockPhaseMaps : String → Fin 4 → BitVec 64)
    (samples : String → Nat → List Sample)
    (inputs : Nat → Selection) : Nat → Option DumpedServer
  | 0 => some (.init clockPhaseMaps)
  | turn + 1 =>
      (dumpedRun config clockPhaseMaps samples inputs turn).bind fun dumped =>
        (heard config dumped.traced.server (inputs turn)).map
          (runDumped config samples dumped)

section

variable {config : Config}
variable {clockPhaseMaps : String → Fin 4 → BitVec 64}
variable {samples : String → Nat → List Sample}
variable {inputs : Nat → Selection}
variable {server : Server}

/-- The file does not change what the server does. -/
theorem dumpedRun_traced
    {turn : Nat}
    {dumped : DumpedServer}
    (reached : dumpedRun config clockPhaseMaps samples inputs turn = some dumped) :
    tracedRun config clockPhaseMaps inputs turn = some dumped.traced := by
  induction turn generalizing dumped with
  | zero =>
      cases reached
      rfl
  | succ turn inductionHypothesis =>
      obtain ⟨before, isBefore, isNext⟩ := Option.bind_eq_some_iff.mp reached
      obtain ⟨server, didHear, rfl⟩ := Option.map_eq_some_iff.mp isNext
      rw [tracedRun, inductionHypothesis isBefore, Option.bind_some, tracedRound,
        didHear]
      rfl

/-! ## One bus -/

/-- Runs leave what waits as it is. -/
theorem sameWaiting_runBuses (peekTime : String → Nat) :
    SameWaiting (initializeBuses config server)
      (runBuses config peekTime server) := by
  apply updateBuses_waiting
  · apply updateBuses_waiting
    · exact fun _ => rfl
    · exact fun port => checkBus_waiting (config.devices port)
  · exact fun port => busReady_waiting (config.devices port)

/-- The initializations of a turn end the wait of the buses that are ready. -/
theorem runBuses_needInitialization
    (peekTime : String → Nat)
    {port : String}
    (isPort : port ∈ config.ports) :
    ((runBuses config peekTime server).busMap port).needInitialization =
      ((server.busMap port).needInitialization &&
        !(scanDevices (config.devices port) (server.busMap port)).1) := by
  rw [sameWaiting_runBuses peekTime port, initializeBuses_busMap, if_pos isPort,
    initializeBus_waiting]

/-- A server with one bus assembles it once and then runs it, turn after turn. -/
structure OneClock
    (options : ClockOptions)
    (port : String)
    (samples : Nat → List Sample)
    (dumped : DumpedServer) : Prop where
  clock : dumped.traced.clocks port = BusClock.advanced options (dumped.ran port)
  waiting :
    (dumped.traced.server.busMap port).needInitialization = true →
      dumped.events = [] ∧ dumped.ran port = 0
  running :
    (dumped.traced.server.busMap port).needInitialization = false →
      dumped.events = clockedEvents options port samples (dumped.ran port)

variable {options : ClockOptions}
variable {port : String}

theorem filter_singleton (keeps : String → Bool) :
    [port].filter keeps = if keeps port = true then [port] else [] := by
  rw [List.filter_cons, List.filter_nil]

/-- The only bus is assembled when it waits and its devices are ready. -/
theorem assembled_of_only (isOnly : config.ports = [port]) :
    assembled config server =
      if (server.busMap port).needInitialization = true ∧
          (scanDevices (config.devices port) (server.busMap port)).1 = true then
        [port]
      else
        [] := by
  rw [assembled, isOnly, filter_singleton]
  simp only [Bool.and_eq_true]

/-- It runs when its devices are ready. -/
theorem runList_of_only
    (isOnly : config.ports = [port])
    (peekTime : String → Nat) :
    runList config peekTime (initializeBuses config server) =
      if (scanDevices (config.devices port) (server.busMap port)).1 = true then
        [port]
      else
        [] := by
  have isPort : port ∈ config.ports := by
    rw [isOnly]
    exact List.mem_singleton_self port
  have sameScan : (scanDevices (config.devices port)
      (initializeBus (config.devices port) (server.busMap port))).1 =
        (scanDevices (config.devices port) (server.busMap port)).1 := by
    rw [Bool.eq_iff_iff, scanDevices_fst_iff, scanDevices_fst_iff,
      initializeBus_deviceMap]
  rw [runList, isOnly, filter_singleton, canRun, initializeBuses_busMap,
    if_pos isPort, initializeBus_waiting, sameScan]
  cases (scanDevices (config.devices port) (server.busMap port)).1 with
  | true =>
      rw [Bool.not_true, Bool.and_false, Bool.not_false, Bool.and_self]
      rfl
  | false =>
      rw [Bool.and_false]
      rfl

theorem OneClock.runDumped
    {dumped : DumpedServer}
    (oneClock : OneClock options port (samples port) dumped)
    (isOnly : config.ports = [port])
    (same : SameWaiting dumped.traced.server server) :
    OneClock options port (samples port) (runDumped config samples dumped server) := by
  have isPort : port ∈ config.ports := by
    rw [isOnly]
    exact List.mem_singleton_self port
  have waits := @runBuses_needInitialization config server
    (peekTimes dumped.traced.clocks) port isPort
  have runs := @runList_of_only config server port isOnly
    (peekTimes dumped.traced.clocks)
  have assembles := @assembled_of_only config server port isOnly
  rw [same port] at waits assembles
  have ranNext : (Service.runDumped config samples dumped server).ran port =
      if port ∈ runList config (peekTimes dumped.traced.clocks)
        (initializeBuses config server) then
          dumped.ran port + 1 else dumped.ran port := rfl
  have clockNext : (Service.runDumped config samples dumped server).traced.clocks
      port = if port ∈ runList config (peekTimes dumped.traced.clocks)
        (initializeBuses config server) then
          (dumped.traced.clocks port).advanceBusClock
        else dumped.traced.clocks port := rfl
  have eventsNext : (Service.runDumped config samples dumped server).events =
      dumped.events ++ (assembled config server).map .assemblyComplete ++
        (runList config (peekTimes dumped.traced.clocks)
          (initializeBuses config server)).map fun port =>
            .busReady port (((dumped.traced.clocks port).time.unitsValue
              serviceTimePrecision).setWidth 32)
              (samples port (dumped.ran port)) := rfl
  have waitsNext : ((Service.runDumped config samples dumped server).traced.server.busMap
      port).needInitialization = _ := waits
  cases isReady : (scanDevices (config.devices port) (server.busMap port)).1 with
  | false =>
      rw [isReady, if_neg Bool.false_ne_true] at runs
      rw [isReady, if_neg fun both => Bool.false_ne_true both.2] at assembles
      rw [isReady, Bool.not_false, Bool.and_true] at waitsNext
      rw [runs, if_neg List.not_mem_nil] at ranNext clockNext
      rw [runs, assembles, List.map_nil, List.map_nil, List.append_nil,
        List.append_nil] at eventsNext
      constructor
      · rw [clockNext, ranNext]
        exact oneClock.clock
      · rw [waitsNext, eventsNext, ranNext]
        exact oneClock.waiting
      · rw [waitsNext, eventsNext, ranNext]
        exact oneClock.running
  | true =>
      rw [isReady, if_pos rfl] at runs
      rw [isReady, Bool.not_true, Bool.and_false] at waitsNext
      rw [runs, if_pos (List.mem_singleton_self port)] at ranNext clockNext
      rw [runs, List.map_singleton, oneClock.clock] at eventsNext
      constructor
      · rw [clockNext, ranNext, oneClock.clock]
        rfl
      · intro isWaiting
        rw [waitsNext] at isWaiting
        cases isWaiting
      · intro _
        rw [eventsNext, ranNext, clockedEvents_succ]
        congr 1
        cases isWaiting :
            (dumped.traced.server.busMap port).needInitialization with
        | false =>
            rw [isWaiting, if_neg fun both => Bool.false_ne_true both.1] at assembles
            rw [assembles, List.map_nil, List.append_nil]
            exact oneClock.running isWaiting
        | true =>
            obtain ⟨noEvents, noRuns⟩ := oneClock.waiting isWaiting
            rw [isReady, isWaiting, if_pos ⟨rfl, rfl⟩] at assembles
            rw [assembles, noEvents, noRuns]
            rfl

/-- In every run, the only bus has been assembled and has run so many times. -/
theorem dumpedRun_events
    (isOnly : config.ports = [port])
    (isClock : clockPhaseMaps port = (BusClock.ofOptions options).clockPhaseMap)
    {turn : Nat}
    {dumped : DumpedServer}
    (reached : dumpedRun config clockPhaseMaps samples inputs turn = some dumped) :
    OneClock options port (samples port) dumped := by
  induction turn generalizing dumped with
  | zero =>
      cases reached
      constructor
      · change initialClock (clockPhaseMaps port) = _
        rw [isClock]
        rfl
      · exact fun _ => ⟨rfl, rfl⟩
      · intro notWaiting
        cases notWaiting
  | succ turn inductionHypothesis =>
      obtain ⟨before, isBefore, isNext⟩ := Option.bind_eq_some_iff.mp reached
      obtain ⟨server, didHear, rfl⟩ := Option.map_eq_some_iff.mp isNext
      exact (inductionHypothesis isBefore).runDumped isOnly (heard_waiting didHear)

end

/-! ## Several buses -/

/--
A history of the file in which every bus is assembled once, before it runs.
-/
inductive Tidy : List DumpEvent → Prop
  | nothing : Tidy []
  | assembles
      {events : List DumpEvent}
      {port : String}
      (tidy : Tidy events)
      (isNew : .assemblyComplete port ∉ events) :
      Tidy (events ++ [.assemblyComplete port])
  | runs
      {events : List DumpEvent}
      {port : String}
      {time : BitVec 32}
      {samples : List Sample}
      (tidy : Tidy events)
      (isAssembled : .assemblyComplete port ∈ events) :
      Tidy (events ++ [.busReady port time samples])

/-- The values of an event can be set. -/
def DumpEvent.Fits (buses : String → TracedBus) : DumpEvent → Prop
  | .assemblyComplete port => (buses port).Fits
  | .busReady _ _ samples => ∀ sample ∈ samples, sample.value.Fits

section

variable {events : List DumpEvent}

theorem Tidy.assemblesAll
    (tidy : Tidy events)
    {ports : List String}
    (distinct : ports.Nodup)
    (areNew : ∀ port ∈ ports, .assemblyComplete port ∉ events) :
    Tidy (events ++ ports.map .assemblyComplete) := by
  induction ports generalizing events with
  | nil =>
      rw [List.map_nil, List.append_nil]
      exact tidy
  | cons port ports inductionHypothesis =>
      obtain ⟨notLater, distinct⟩ := List.nodup_cons.mp distinct
      have next := tidy.assembles (areNew port List.mem_cons_self)
      have all := inductionHypothesis next distinct (by
        intro other isLater isThere
        rcases List.mem_append.mp isThere with isBefore | isNext
        · exact areNew other (List.mem_cons_of_mem _ isLater) isBefore
        · cases List.mem_singleton.mp isNext
          exact notLater isLater)
      rw [List.append_assoc] at all
      exact all

theorem Tidy.runsAll
    (tidy : Tidy events)
    {ports : List String}
    {time : String → BitVec 32}
    {samples : String → List Sample}
    (areAssembled : ∀ port ∈ ports, .assemblyComplete port ∈ events) :
    Tidy (events ++ ports.map fun port =>
      .busReady port (time port) (samples port)) := by
  induction ports generalizing events with
  | nil =>
      rw [List.map_nil, List.append_nil]
      exact tidy
  | cons port ports inductionHypothesis =>
      have next := @Tidy.runs events port (time port) (samples port) tidy
        (areAssembled port List.mem_cons_self)
      have all := inductionHypothesis next fun other isLater =>
        List.mem_append_left _ (areAssembled other (List.mem_cons_of_mem _ isLater))
      rw [List.append_assoc] at all
      exact all

/-- A tidy history starts with an assembly. -/
theorem Tidy.starts (tidy : Tidy events) :
    events = [] ∨ ∃ first rest, events = .assemblyComplete first :: rest := by
  induction tidy with
  | nothing =>
      exact .inl rfl
  | assembles _ _ inductionHypothesis =>
      rcases inductionHypothesis with rfl | ⟨first, rest, rfl⟩
      · exact .inr ⟨_, [], rfl⟩
      · exact .inr ⟨first, _, rfl⟩
  | runs _ isAssembled inductionHypothesis =>
      rcases inductionHypothesis with rfl | ⟨first, rest, rfl⟩
      · cases isAssembled
      · exact .inr ⟨first, _, rfl⟩

variable {buses : String → TracedBus}

/-- What has no symbols can be set. -/
theorem setTraces_null_total
    {trace : Trace}
    (holds : trace.Holds)
    {samples : List Sample}
    (fits : ∀ sample ∈ samples, sample.value.Fits) :
    samples.foldlM (setTrace fun _ => none) trace = some trace := by
  have handles : ∀ lab handle, (fun _ => none : SignalTraceMap) lab = some handle →
      handle < trace.facilities.length := by
    intro lab handle isNone
    cases isNone
  obtain ⟨trace', didSet⟩ := setTraces_total holds handles fits
  rw [didSet, setTraces_null didSet]

/-- A tidy history can happen if its values fit. -/
theorem Tidy.total
    (tidy : Tidy events)
    (sound : ∀ port, (buses port).Sound)
    (fits : ∀ event ∈ events, event.Fits buses) :
    ∃ dump, Dump.run buses events = some dump ∧
      ∀ port, (dump.signalTraceMaps port).isSome ↔
        .assemblyComplete port ∈ events := by
  induction tidy with
  | nothing =>
      obtain ⟨trace, isOpened, _⟩ := Dump.opened_spec
      refine ⟨⟨trace, fun _ => none⟩, ?_, fun port => ?_⟩
      · rw [Dump.run, isOpened]
        rfl
      · exact ⟨fun isSome => absurd isSome Bool.false_ne_true,
          fun member => absurd member List.not_mem_nil⟩
  | @assembles events port tidy isNew inductionHypothesis =>
      obtain ⟨dump, ran, areMaps⟩ := inductionHypothesis fun event member =>
        fits event (List.mem_append_left _ member)
      have fitsPort : (buses port).Fits :=
        fits _ (List.mem_append_right _ List.mem_cons_self)
      have notYet : dump.signalTraceMaps port = none :=
        Option.not_isSome_iff_eq_none.mp fun isSome => isNew ((areMaps port).mp isSome)
      have isNext : ∃ trace signalTraceMap, dump.perform buses
          (.assemblyComplete port) = some ⟨trace, Function.update dump.signalTraceMaps
            port (some signalTraceMap)⟩ := by
        rcases tidy.starts with rfl | ⟨first, rest, rfl⟩
        · obtain ⟨dump', ran'⟩ := Dump.first_total (sound port) fitsPort
          obtain ⟨before, isBefore, performed⟩ := @Dump.run_concat buses dump' []
            (.assemblyComplete port) ran'
          obtain rfl := Option.some.inj (isBefore.symm.trans ran)
          obtain ⟨_, _, signalTraceMap, trace, _, _, rfl⟩ :=
            Dump.assemblyComplete_spec performed
          exact ⟨trace, signalTraceMap, performed⟩
        · have oneBus := Dump.run_oneBus (sound first) ran
          refine ⟨dump.trace, fun _ => none, ?_⟩
          rw [Dump.perform, Dump.assemblyComplete]
          simp only [notYet, makeTraces_written oneBus.holds oneBus.emitted,
            setTraces_null_total oneBus.holds fitsPort.values, Option.bind_eq_bind,
            Option.bind_some]
      obtain ⟨trace, signalTraceMap, performed⟩ := isNext
      refine ⟨_, Dump.run_of_concat ran performed, fun other => ?_⟩
      rw [List.mem_append, List.mem_singleton, ← areMaps other]
      by_cases same : other = port
      · subst same
        simp only [Function.update_self, Option.isSome_some, or_true]
      · have notSame : DumpEvent.assemblyComplete other ≠ .assemblyComplete port :=
          fun isSame => same (DumpEvent.assemblyComplete.inj isSame)
        simp only [Function.update_of_ne same, notSame, or_false]
  | @runs events port time samples tidy isAssembled inductionHypothesis =>
      obtain ⟨dump, ran, areMaps⟩ := inductionHypothesis fun event member =>
        fits event (List.mem_append_left _ member)
      have fitsSamples : ∀ sample ∈ samples, sample.value.Fits :=
        fits _ (List.mem_append_right _ List.mem_cons_self)
      rcases tidy.starts with rfl | ⟨first, rest, rfl⟩
      · cases isAssembled
      · have oneBus := Dump.run_oneBus (sound first) ran
        have isNext : ∃ dump', dump.perform buses (.busReady port time samples) =
            some dump' := by
          by_cases isFirst : port = first
          · subst isFirst
            exact oneBus.busReady_total time fitsSamples
          · obtain ⟨signalTraceMap, isMap⟩ :=
              Option.isSome_iff_exists.mp ((areMaps port).mpr isAssembled)
            obtain rfl := oneBus.others port signalTraceMap isFirst isMap
            obtain ⟨timed, isTimed, goes⟩ := Trace.setTime64_goes oneBus.holds
              (time.setWidth 64)
            refine ⟨{ dump with trace := timed }, ?_⟩
            rw [Dump.perform, Dump.busReady]
            simp only [isMap, Option.bind_eq_bind, Option.bind_some, Trace.setTime,
              isTimed, setTraces_null_total goes.holds fitsSamples]
        obtain ⟨dump', performed⟩ := isNext
        obtain ⟨_, _, trace, _, _, _, rfl⟩ := Dump.busReady_spec performed
        refine ⟨_, Dump.run_of_concat ran performed, fun other => ?_⟩
        rw [List.mem_append, List.mem_singleton, ← areMaps other]
        have notSame : DumpEvent.assemblyComplete other ≠
            .busReady port time samples := by
          intro isSame
          cases isSame
        simp only [notSame, or_false]

end

/-- How the file and the server go together after some turns. -/
structure Assembles (dumped : DumpedServer) : Prop where
  tidy : Tidy dumped.events
  complete : ∀ port, .assemblyComplete port ∈ dumped.events ↔
    (dumped.traced.server.busMap port).needInitialization = false
  times : dumped.events.filterMap DumpEvent.time? = timesSet dumped.traced.log

section

variable {config : Config}
variable {clockPhaseMaps : String → Fin 4 → BitVec 64}
variable {samples : String → Nat → List Sample}
variable {inputs : Nat → Selection}
variable {server : Server}
variable {dumped : DumpedServer}

/-- A bus that is not configured stays as it is. -/
theorem runBuses_other
    (peekTime : String → Nat)
    {port : String}
    (notPort : port ∉ config.ports) :
    ((runBuses config peekTime server).busMap port).needInitialization =
      (server.busMap port).needInitialization := by
  rw [sameWaiting_runBuses peekTime port, initializeBuses_busMap, if_neg notPort]

/-- The times of the runs are those that are set. -/
theorem times_of_runs
    (clocks : String → BusClock)
    (values : String → List Sample)
    (ports : List String) :
    (ports.map fun port => DumpEvent.busReady port
      (((clocks port).time.unitsValue serviceTimePrecision).setWidth 32)
      (values port)).filterMap DumpEvent.time? =
        timesSet (ports.flatMap (runEvents clocks)) := by
  induction ports with
  | nil =>
      rfl
  | cons port ports inductionHypothesis =>
      exact congrArg (List.cons _) inductionHypothesis

theorem times_of_assemblies
    (clocks : String → BusClock)
    (ports : List String) :
    (ports.map DumpEvent.assemblyComplete).filterMap DumpEvent.time? =
      timesSet (ports.map (initEvent clocks)) := by
  induction ports with
  | nil =>
      rfl
  | cons port ports inductionHypothesis =>
      exact inductionHypothesis

/-- A turn assembles buses that are waiting, and runs buses that are assembled. -/
theorem Assembles.runDumped
    (assembles : Assembles dumped)
    (same : SameWaiting dumped.traced.server server) :
    Assembles (Service.runDumped config samples dumped server) := by
  have distinct : (assembled config server).Nodup := config.portsDistinct.filter _
  have areNew : ∀ port ∈ assembled config server,
      .assemblyComplete port ∉ dumped.events := by
    intro port member isThere
    have isWaiting := ((mem_assembled_iff port).mp member).2.1
    rw [same port, (assembles.complete port).mp isThere] at isWaiting
    cases isWaiting
  have next := assembles.tidy.assemblesAll distinct areNew
  have isInNext : ∀ port, .assemblyComplete port ∈ dumped.events ++
      (assembled config server).map .assemblyComplete ↔
        .assemblyComplete port ∈ dumped.events ∨ port ∈ assembled config server := by
    intro port
    rw [List.mem_append, List.mem_map_of_injective fun _ _ =>
      DumpEvent.assemblyComplete.inj]
  have runsAssembled : ∀ port ∈ runList config (peekTimes dumped.traced.clocks)
      (initializeBuses config server), .assemblyComplete port ∈ dumped.events ++
        (assembled config server).map .assemblyComplete := by
    intro port member
    obtain ⟨isPort, allReady⟩ := (mem_runList_iff _ port).mp member
    rw [isInNext]
    cases isWaiting : (server.busMap port).needInitialization with
    | false =>
        rw [same port] at isWaiting
        exact .inl ((assembles.complete port).mpr isWaiting)
    | true =>
        exact .inr ((mem_assembled_iff port).mpr ⟨isPort, isWaiting, allReady⟩)
  constructor
  · exact next.runsAll runsAssembled
  · intro port
    have notRun : .assemblyComplete port ∉ (runList config
        (peekTimes dumped.traced.clocks) (initializeBuses config server)).map
          fun port => DumpEvent.busReady port (((dumped.traced.clocks
            port).time.unitsValue serviceTimePrecision).setWidth 32)
            (samples port (dumped.ran port)) := by
      intro member
      obtain ⟨_, _, isRun⟩ := List.mem_map.mp member
      cases isRun
    change DumpEvent.assemblyComplete port ∈ dumped.events ++ _ ++ _ ↔ ((runBuses
      config (peekTimes dumped.traced.clocks) server).busMap port).needInitialization =
        false
    rw [List.mem_append, or_iff_left notRun, isInNext, assembles.complete,
      mem_assembled_iff, same port]
    by_cases isPort : port ∈ config.ports
    · rw [runBuses_needInitialization _ isPort, same port, Bool.and_eq_false_iff,
        Bool.not_eq_false', scanDevices_fst_iff]
      cases isWaiting : (dumped.traced.server.busMap port).needInitialization with
      | false =>
          exact iff_of_true (.inl rfl) (.inl rfl)
      | true =>
          exact or_congr_right (and_iff_right isPort |>.trans (and_iff_right rfl))
    · rw [runBuses_other _ isPort, same port]
      exact or_iff_left fun both => isPort both.1
  · change (dumped.events ++ _ ++ _).filterMap DumpEvent.time? =
      timesSet (dumped.traced.log ++ _ ++ _)
    rw [List.filterMap_append, List.filterMap_append, assembles.times,
      times_of_assemblies dumped.traced.clocks, times_of_runs, timesSet, timesSet,
      timesSet, timesSet, List.filterMap_append, List.filterMap_append]

/-- Every run has recorded what its bus gives for one of its steps. -/
theorem dumpedRun_samples
    {turn : Nat}
    (reached : dumpedRun config clockPhaseMaps samples inputs turn = some dumped) :
    ∀ port time values, .busReady port time values ∈ dumped.events →
      ∃ step, values = samples port step := by
  induction turn generalizing dumped with
  | zero =>
      cases reached
      intro port time values member
      cases member
  | succ turn inductionHypothesis =>
      obtain ⟨before, isBefore, isNext⟩ := Option.bind_eq_some_iff.mp reached
      obtain ⟨server, didHear, rfl⟩ := Option.map_eq_some_iff.mp isNext
      intro port time values member
      rcases List.mem_append.mp member with isEarlier | isRun
      · rcases List.mem_append.mp isEarlier with isOld | isAssembly
        · exact inductionHypothesis isBefore port time values isOld
        · obtain ⟨_, _, isSame⟩ := List.mem_map.mp isAssembly
          cases isSame
      · obtain ⟨other, _, isSame⟩ := List.mem_map.mp isRun
        cases isSame
        exact ⟨before.ran port, rfl⟩

/-- File and server go together after any number of turns. -/
theorem dumpedRun_assembles
    {turn : Nat}
    (reached : dumpedRun config clockPhaseMaps samples inputs turn = some dumped) :
    Assembles dumped := by
  induction turn generalizing dumped with
  | zero =>
      cases reached
      exact
        { tidy := .nothing
          complete := fun port => ⟨fun member => absurd member List.not_mem_nil,
            fun isStarted => absurd isStarted.symm Bool.false_ne_true⟩
          times := rfl }
  | succ turn inductionHypothesis =>
      obtain ⟨before, isBefore, isNext⟩ := Option.bind_eq_some_iff.mp reached
      obtain ⟨server, didHear, rfl⟩ := Option.map_eq_some_iff.mp isNext
      exact (inductionHypothesis isBefore).runDumped (heard_waiting didHear)

end

/--
In a server with any number of buses, the file shows the history of the bus that was
assembled first, as long as the times that are set do not go back.
-/
theorem server_dump_playback
    {config : Config}
    {clockPhaseMaps : String → Fin 4 → BitVec 64}
    {samples : String → Nat → List Sample}
    {inputs : Nat → Selection}
    {buses : String → TracedBus}
    (protocols : ∀ port, ∃ name, IsProtocol name (buses port))
    (initialFits : ∀ port, (buses port).Fits)
    (fits : ∀ port step, ∀ sample ∈ samples port step, sample.value.Fits)
    (steady : ∀ port step, Steady (samples port step))
    {turn : Nat}
    {dumped : DumpedServer}
    (reached : dumpedRun config clockPhaseMaps samples inputs turn = some dumped)
    (rising : (timesSet dumped.traced.log).Pairwise (· ≤ ·))
    (someEvents : dumped.events ≠ [])
    (few : ∀ first, dumped.events.head? = some (.assemblyComplete first) →
      Dump.Few buses first dumped.events) :
    ∃ first dump closed waveform,
      dumped.events.head? = some (.assemblyComplete first) ∧
        Dump.run buses dumped.events = some dump ∧
        dump.finish = some closed ∧ readFile closed = some waveform ∧
        ∀ label ∈ (buses first).labels, ∀ time,
          waveform.value ((buses first).name.text ++ '.' :: label.lab.toList) time =
            some (Timeline.valueAt
              (traceFacility (buses first).name label).initial
              (signalHistory buses first label dumped.events) time) := by
  have assembles := dumpedRun_assembles reached
  have isGiven := dumpedRun_samples reached
  have sound : ∀ port, (buses port).Sound := by
    intro port
    obtain ⟨_, isProtocol⟩ := protocols port
    exact isProtocol.sound.1
  have allFit : ∀ event ∈ dumped.events, event.Fits buses := by
    intro event member
    cases event with
    | assemblyComplete port =>
        exact initialFits port
    | busReady port time values =>
        obtain ⟨step, rfl⟩ := isGiven port time values member
        exact fits port step
  obtain ⟨dump, ran, _⟩ := assembles.tidy.total sound allFit
  obtain ⟨first, rest, isEvents⟩ := assembles.tidy.starts.resolve_left someEvents
  have times := assembles.times
  have fewFirst := few first (congrArg List.head? isEvents)
  rw [isEvents] at ran fewFirst times ⊢
  obtain ⟨_, isProtocol⟩ := protocols first
  have risingRest : (rest.filterMap DumpEvent.time?).Pairwise (· ≤ ·) := by
    rw [← times] at rising
    exact rising
  have recorded := Dump.run_recorded (sound first) isProtocol.sound.2 fewFirst
    risingRest (by
      intro time values member
      have isMember : .busReady first time values ∈ dumped.events := by
        rw [isEvents]
        exact List.mem_cons_of_mem _ member
      obtain ⟨step, rfl⟩ := isGiven first time values isMember
      exact steady first step) ran
  obtain ⟨closed, waveform, isClosed, isFile, values⟩ := recorded.playback fewFirst
  exact ⟨first, dump, closed, waveform, rfl, ran, isClosed, isFile, values⟩

/-- Of two buses the slower one takes the file, and its clock goes on by itself. -/
theorem server_dump_playback_slower :
    ∃ buses samples dumped dump closed waveform,
      (∀ port, ∃ name, IsProtocol name (buses port)) ∧
      dumpedRun twoBuses twoSpeeds samples slowerAhead 4 = some dumped ∧
      Dump.run buses dumped.events = some dump ∧
      dump.finish = some closed ∧ readFile closed = some waveform ∧
      waveform.value ['a', '.', 'C', 'L', 'O', 'C', 'K'] 129 = some ['0'] ∧
      waveform.value ['a', '.', 'C', 'L', 'O', 'C', 'K'] 130 = some ['1'] := by
  let proto : P2p.PointToPoint := ⟨.ofOptions ⟨2, 2, 1, 1⟩, .run, 0, 0⟩
  let bus : TracedBus := pointToPoint ⟨['a'], by decide⟩ proto
  let buses : String → TracedBus := fun _ => bus
  let samples : String → Nat → List Sample := fun port step =>
    [.bit "CLOCK" (if port = "tcp:33" ∧ step = 0 then .zero else .one)]
  have turns : (dumpedRun twoBuses twoSpeeds samples slowerAhead 4).any (fun dumped =>
      dumped.events.head?.any (fun event =>
        !(event.given buses "tcp:33").isEmpty) &&
      timesSet dumped.traced.log == [0, 0, 130] &&
      (given buses "tcp:33" dumped.events).length == 4 &&
      signalHistory buses "tcp:33" (.bit "CLOCK") dumped.events ==
        [(0, ['1']), (0, ['0']), (130, ['1'])]) = true := by
    decide +kernel
  obtain ⟨dumped, reached, facts⟩ := (Option.any_eq_true _ _).mp turns
  simp only [Bool.and_eq_true, beq_iff_eq] at facts
  obtain ⟨⟨⟨isHead, isTimes⟩, isLength⟩, isHistory⟩ := facts
  obtain ⟨event, isEvent, isFirst⟩ := (Option.any_eq_true _ _).mp isHead
  have onlySlower : ∀ first, dumped.events.head? = some (.assemblyComplete first) →
      first = "tcp:33" := by
    intro first isStart
    obtain rfl := Option.some.inj (isStart.symm.trans isEvent)
    by_contra notSlower
    have isNil : DumpEvent.given buses "tcp:33" (.assemblyComplete first) = [] :=
      if_neg notSlower
    rw [isNil] at isFirst
    cases isFirst
  have someEvents : dumped.events ≠ [] := by
    intro noEvents
    rw [noEvents] at isEvent
    cases isEvent
  have few : ∀ first, dumped.events.head? = some (.assemblyComplete first) →
      Dump.Few buses first dumped.events := by
    intro first isStart
    obtain rfl := onlySlower first isStart
    constructor
    · rw [isLength]
      decide
    · decide
  have protocols : ∀ port, ∃ name, IsProtocol name (buses port) :=
    fun _ => ⟨⟨['a'], by decide⟩, .pointToPoint proto⟩
  have initialFits : ∀ port, (buses port).Fits :=
    fun _ => ⟨by decide, by decide⟩
  have fits : ∀ port step, ∀ sample ∈ samples port step, sample.value.Fits := by
    intro _ _ sample member
    rw [List.mem_singleton.mp member]
    trivial
  obtain ⟨first, dump, closed, waveform, isStart, ran, isClosed, isFile, values⟩ :=
    server_dump_playback protocols initialFits fits
      (fun _ _ => List.pairwise_singleton _ _) reached
      (by rw [isTimes]; decide) someEvents few
  obtain rfl := onlySlower first isStart
  have clock := values (.bit "CLOCK") List.mem_cons_self
  rw [isHistory] at clock
  exact ⟨buses, samples, dumped, dump, closed, waveform, protocols, reached, ran,
    isClosed, isFile, (clock 129).trans (congrArg some (by decide +kernel)),
    (clock 130).trans (congrArg some (by decide +kernel))⟩

end Simbus.Service
