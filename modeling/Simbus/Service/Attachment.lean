import Simbus.Service.Plugs
import Simbus.Service.Run

/-!
# A device has one client

Each step is one of two kinds: a HELLO binds a connection to a plug, and every
other step leaves the bindings of the live clients as they are.  So a plug is
bound to two live clients only by a HELLO for a device that has one already,
and that HELLO is never refused.
-/

namespace Simbus.Service

/-! ## Live clients -/

/-- A connection that is attached to a device that has not exited. -/
def LiveClient
    (server : Server)
    (port dev : String)
    (fd : Nat) : Prop :=
  ∃ client, server.clientMap fd = some client ∧
    client.bus = port ∧ client.devName = some dev ∧
    isExited server client = false

/-- No plug is bound to two live clients. -/
def Exclusive (server : Server) : Prop :=
  ∀ port dev first second,
    LiveClient server port dev first → LiveClient server port dev second →
    first = second

/-- Exclusive plugs, and no names other than those of the devices. -/
structure PlugInvariant (config : Config) (server : Server) : Prop where
  exclusive : Exclusive server
  known : ∀ fd client, server.clientMap fd = some client →
    ∀ dev, client.devName = some dev → dev ∈ config.devices client.bus

/--
No connection is bound to a plug that it was not bound to before, and no exited
device comes back.
-/
structure BindingFrame (server server' : Server) : Prop where
  clients : ∀ fd client', server'.clientMap fd = some client' →
    ∀ dev, client'.devName = some dev →
    ∃ client, server.clientMap fd = some client ∧
      client.bus = client'.bus ∧ client.devName = some dev
  exited : ∀ port dev,
    ((server.busMap port).deviceMap dev).exitedFlag = true →
    ((server'.busMap port).deviceMap dev).exitedFlag = true

section

variable {config : PlugConfig}
variable {server server' server'' : Server}
variable {fd : Nat}
variable {client : ClientState}

theorem isExited_named
    {dev : String}
    (isNamed : client.devName = some dev) :
    isExited server client =
      ((server.busMap client.bus).deviceMap dev).exitedFlag := by
  rw [isExited, isNamed]

theorem BindingFrame.refl (server : Server) : BindingFrame server server where
  clients := fun _ client isClient _ isNamed =>
    ⟨client, isClient, rfl, isNamed⟩
  exited := fun _ _ => id

theorem BindingFrame.trans
    (first : BindingFrame server server')
    (later : BindingFrame server' server'') :
    BindingFrame server server'' where
  clients := by
    intro fd client'' isClient'' dev isNamed''
    obtain ⟨client', isClient', sameBus', isNamed'⟩ :=
      later.clients fd client'' isClient'' dev isNamed''
    obtain ⟨client, isClient, sameBus, isNamed⟩ :=
      first.clients fd client' isClient' dev isNamed'
    exact ⟨client, isClient, sameBus.trans sameBus', isNamed⟩
  exited := fun port dev exited =>
    later.exited port dev (first.exited port dev exited)

/-- A connection keeps its name, or has none. -/
theorem BindingFrame.setClient
    {client' : ClientState}
    (named : ∀ dev, client'.devName = some dev →
      ∃ client, server.clientMap fd = some client ∧
        client.bus = client'.bus ∧ client.devName = some dev) :
    BindingFrame server (server.setClient fd client') where
  clients := by
    intro other client'' isClient dev isNamed
    by_cases same : other = fd
    · subst same
      simp only [Server.setClient, Function.update_self,
        Option.some.injEq] at isClient
      subst isClient
      exact named dev isNamed
    · simp only [Server.setClient, ne_eq, same, not_false_eq_true,
        Function.update_of_ne] at isClient
      exact ⟨client'', isClient, rfl, isNamed⟩
  exited := fun _ _ => id

/-- A bus changes without an exited device coming back. -/
theorem BindingFrame.updateBus
    (server : Server)
    (port : String)
    {change : BusState → BusState}
    (exits : ∀ dev,
      ((server.busMap port).deviceMap dev).exitedFlag = true →
      ((change (server.busMap port)).deviceMap dev).exitedFlag = true) :
    BindingFrame server (server.updateBus port change) where
  clients := fun _ client isClient _ isNamed =>
    ⟨client, isClient, rfl, isNamed⟩
  exited := by
    intro other dev exited
    by_cases same : other = port
    · subst same
      rw [server.updateBus_self]
      exact exits dev exited
    · rw [server.updateBus_other change same]
      exact exited

theorem BindingFrame.live
    (frame : BindingFrame server server')
    {port dev : String}
    (live : LiveClient server' port dev fd) :
    LiveClient server port dev fd := by
  obtain ⟨client', isClient', rfl, isNamed', notExited'⟩ := live
  obtain ⟨client, isClient, sameBus, isNamed⟩ :=
    frame.clients fd client' isClient' dev isNamed'
  refine ⟨client, isClient, sameBus, isNamed, ?_⟩
  rw [isExited_named isNamed'] at notExited'
  rw [isExited_named isNamed, sameBus]
  by_contra exited
  rw [frame.exited _ dev ((Bool.not_eq_false _).mp exited)] at notExited'
  cases notExited'

theorem PlugInvariant.frame
    (invariant : PlugInvariant config.toConfig server)
    (frame : BindingFrame server server') :
    PlugInvariant config.toConfig server' where
  exclusive := fun port dev first second firstLive secondLive =>
    invariant.exclusive port dev first second
      (frame.live firstLive) (frame.live secondLive)
  known := by
    intro fd client' isClient' dev isNamed'
    obtain ⟨client, isClient, sameBus, isNamed⟩ :=
      frame.clients fd client' isClient' dev isNamed'
    rw [← sameBus]
    exact invariant.known fd client isClient dev isNamed

/-! ## What the operations do to the bindings -/

theorem listenReady_frame
    (server : Server)
    (port : String)
    (fd : Nat) :
    BindingFrame server (listenReady server port fd) :=
  .setClient nofun

/-- A flag of a plug that is set stays set when the plug is replaced. -/
theorem setPlug_exited
    {bus : BusState}
    {dev other : String}
    {plug : BusDevicePlug}
    (stays : (bus.deviceMap dev).exitedFlag = true → plug.exitedFlag = true)
    (exited : (bus.deviceMap other).exitedFlag = true) :
    ((bus.setPlug dev plug).deviceMap other).exitedFlag = true := by
  by_cases same : other = dev
  · subst same
    rw [BusState.setPlug_self]
    exact stays exited
  · rw [BusState.setPlug_other bus plug same]
    exact exited

theorem initializeBus_exited
    (devices : List String)
    (bus : BusState)
    (dev : String) :
    ((initializeBus devices bus).deviceMap dev).exitedFlag =
      (bus.deviceMap dev).exitedFlag := by
  obtain ⟨finished, shape, _⟩ := scanDevices_shape devices bus
  rw [initializeBus]
  split
  · simp only
    split
    · rw [assemblyComplete, BusState.record, shape]
    · rw [shape]
  · rfl

theorem checkBus_exited
    (devices : List String)
    (bus : BusState)
    (dev : String) :
    ((checkBus devices bus).deviceMap dev).exitedFlag =
      (bus.deviceMap dev).exitedFlag := by
  obtain ⟨finished, shape, _⟩ := scanDevices_shape devices bus
  rw [checkBus]
  split
  · rfl
  · rw [shape]

theorem clearReady_exited
    (devices : List String)
    (bus : BusState)
    (dev : String) :
    ((clearReady devices bus).deviceMap dev).exitedFlag =
      (bus.deviceMap dev).exitedFlag := by
  simp only [clearReady]
  split <;> rfl

theorem busReady_exited
    {devices : List String}
    {bus : BusState}
    {dev : String}
    (exited : (bus.deviceMap dev).exitedFlag = true) :
    ((busReady devices bus).deviceMap dev).exitedFlag = true := by
  rw [← clearReady_exited devices] at exited
  rw [busReady]
  split
  · simp only [closeBus, BusState.record]
    split
    · rfl
    · exact exited
  · exact exited

theorem recordLeave_frame
    (server : Server)
    (fd : Nat)
    (received : List Line) :
    BindingFrame server (recordLeave fd received server) := by
  rw [recordLeave]
  split
  · split
    · exact .updateBus server _ fun _ => id
    · exact .refl server
  · exact .refl server

theorem readEof_frame
    {config : Config}
    (success : readFromSocket config server fd client .eof = some server') :
    BindingFrame server server' := by
  rw [readFromSocket] at success
  cases isNamed : client.devName with
  | none =>
      rw [isNamed] at success
      cases success
  | some dev =>
      rw [isNamed] at success
      obtain rfl := Option.some.inj success
      exact .updateBus server _ fun _ => setPlug_exited fun _ => rfl

/-- A client that has a name keeps it, whatever it says. -/
theorem processClientCommand_frame
    {config : Config}
    (isClient : server.clientMap fd = some client)
    (buffer : List Line)
    (line : Line)
    (noBinding : client.devName = none → ∀ name, line = .hello name →
      name ∉ config.devices client.bus) :
    BindingFrame server
      (processClientCommand config server fd
        { client with buffer := buffer } line) := by
  have kept :
      BindingFrame server
        (server.setClient fd { client with buffer := buffer }) :=
    .setClient fun dev isNamed => ⟨client, isClient, rfl, isNamed⟩
  unfold processClientCommand
  split
  · rename_i name isNamed
    rw [processClientHello, if_neg (noBinding isNamed name rfl)]
    exact kept
  · exact kept
  · exact kept
  · exact kept.trans (.updateBus _ _ fun _ => setPlug_exited id)
  · exact kept.trans (.updateBus _ _ fun _ => setPlug_exited fun _ => rfl)

/-- A HELLO for a device without a live client binds its plug to one. -/
theorem PlugInvariant.hello
    (invariant : PlugInvariant config.toConfig server)
    {name : String}
    (isDevice : name ∈ config.devices client.bus)
    (free : ∀ other, ¬ LiveClient server client.bus name other) :
    PlugInvariant config.toConfig
      (processClientHello config.toConfig server fd client name) := by
  rw [processClientHello, if_pos isDevice]
  let bound : ClientState := { client with devName := some name }
  have exits : ∀ server : Server,
      BindingFrame server
        (server.updateBus client.bus (Service.attach fd name)) :=
    fun server => .updateBus server _ fun _ => setPlug_exited id
  refine PlugInvariant.frame ?_ (exits (server.setClient fd bound))
  have binding {other : Nat} {port dev : String}
      (live : LiveClient (server.setClient fd bound) port dev other) :
      (other = fd ∧ port = client.bus ∧ dev = name) ∨
        LiveClient server port dev other := by
    obtain ⟨found, isFound, sameBus, isNamed, notExited⟩ := live
    by_cases same : other = fd
    · subst same
      simp only [Server.setClient, Function.update_self,
        Option.some.injEq] at isFound
      subst isFound
      exact .inl ⟨rfl, sameBus.symm, (Option.some.inj isNamed).symm⟩
    · simp only [Server.setClient, ne_eq, same, not_false_eq_true,
        Function.update_of_ne] at isFound
      exact .inr ⟨found, isFound, sameBus, isNamed, notExited⟩
  constructor
  · intro port dev first second firstLive secondLive
    rcases binding firstLive with ⟨rfl, rfl, rfl⟩ | firstOld
    · rcases binding secondLive with ⟨rfl, _⟩ | secondOld
      · rfl
      · exact (free second secondOld).elim
    · rcases binding secondLive with ⟨rfl, rfl, rfl⟩ | secondOld
      · exact (free first firstOld).elim
      · exact invariant.exclusive port dev first second firstOld secondOld
  · intro other found isFound dev isNamed
    by_cases same : other = fd
    · subst same
      simp only [Server.setClient, Function.update_self,
        Option.some.injEq] at isFound
      subst isFound
      obtain rfl := Option.some.inj isNamed
      exact isDevice
    · simp only [Server.setClient, ne_eq, same, not_false_eq_true,
        Function.update_of_ne] at isFound
      exact invariant.known other found isFound dev isNamed

end

/-! ## Runs -/

namespace PlugServer

/-- The HELLO that a step executes, with its connection. -/
def helloOf
    (state : PlugServer) :
    PlugEvent → Option (Nat × ClientState × String)
  | .read fd arrived =>
      match state.server.clientMap fd, state.pending fd ++ arrived with
      | some client, .hello name _ :: _ => some (fd, client, name)
      | _, _ => none
  | _ => none

/-- The step executes a HELLO that names a device of a live client. -/
def HelloTaken (state : PlugServer) (event : PlugEvent) : Prop :=
  ∃ fd client name, state.helloOf event = some (fd, client, name) ∧
    ∃ owner, LiveClient state.server client.bus name owner

/-- A HELLO for a device of a live client gets a NAK and changes nothing. -/
def RefusesTaken
    (state : PlugServer)
    (event : PlugEvent)
    (next : PlugServer) : Prop :=
  ∀ fd client name, state.helloOf event = some (fd, client, name) →
    (∃ owner, LiveClient state.server client.bus name owner) →
    next.answers = state.answers ++ [(fd, .nak)] ∧
      next.plug client.bus name = state.plug client.bus name ∧
      next.options client.bus = state.options client.bus

/--
In every state of a run no plug has two live clients, and every HELLO for a
device of a live client is refused.
-/
def KeepsPlugs (config : PlugConfig) :
    PlugServer → List PlugEvent → Prop
  | state, [] => Exclusive state.server
  | state, event :: rest =>
      Exclusive state.server ∧
        ∀ next ∈ state.step config event,
          state.RefusesTaken event next ∧ KeepsPlugs config next rest

/-- No step of a run executes a HELLO for a device of a live client. -/
def NoTakenHello (config : PlugConfig) :
    PlugServer → List PlugEvent → Prop
  | _, [] => True
  | state, event :: rest =>
      ¬ state.HelloTaken event ∧
        ∀ next ∈ state.step config event, NoTakenHello config next rest

variable {config : PlugConfig}
variable {state next : PlugServer}
variable {fd : Nat}
variable {client : ClientState}

theorem answerHello_server
    (port name : String)
    (tokens : List String) :
    (answerHello config state fd port name tokens).server =
      state.server := by
  rw [answerHello]
  split <;> rfl

/-- The loop's part of a command is the command as the loop sees it. -/
theorem processCommand_server
    (command : Command) :
    (processCommand config state fd client command).server =
      processClientCommand config.toConfig state.server fd client
        command.line := by
  unfold processCommand
  split
  · rw [answerHello_server]
  · rfl
  · rfl

/-- What a read does to the bindings of the plugs. -/
theorem readCommands_invariant
    {arrived : List Command}
    (invariant : PlugInvariant config.toConfig state.server)
    (isClient : state.server.clientMap fd = some client)
    (free : ¬ state.HelloTaken (.read fd arrived)) :
    PlugInvariant config.toConfig
      (readCommands config state fd client arrived).server := by
  unfold readCommands
  split
  · exact invariant
  · rename_i command rest received
    refine PlugInvariant.frame ?_ (recordLeave_frame _ _ _)
    rw [processCommand_server]
    by_cases binds : client.devName = none ∧
        ∃ name, command.line = .hello name ∧
          name ∈ config.devices client.bus
    · obtain ⟨isNew, name, isHello, isDevice⟩ := binds
      cases command with
      | hello other tokens =>
          obtain rfl := Line.hello.inj isHello
          unfold processClientCommand
          simp only [isNew, isHello]
          refine invariant.hello isDevice ?_
          intro owner live
          refine free ⟨fd, client, other, ?_, owner, live⟩
          simp only [helloOf, isClient, received]
      | ready time scale values =>
          cases isHello
      | finish =>
          cases isHello
    · refine invariant.frame
        (processClientCommand_frame isClient _ _ ?_)
      intro isNew name isHello isDevice
      exact binds ⟨isNew, name, isHello, isDevice⟩

/-- A step that takes no plug keeps them exclusive. -/
theorem step_invariant
    (invariant : PlugInvariant config.toConfig state.server)
    (event : PlugEvent)
    (free : ¬ state.HelloTaken event)
    (success : state.step config event = some next) :
    PlugInvariant config.toConfig next.server := by
  cases event with
  | accept port fd =>
      simp only [step] at success
      split at success
      · obtain rfl := Option.some.inj success
        exact invariant.frame (listenReady_frame _ port fd)
      · obtain rfl := Option.some.inj success
        exact invariant
  | read fd arrived =>
      simp only [step] at success
      split at success
      · obtain rfl := Option.some.inj success
        exact invariant
      · rename_i client isClient
        obtain rfl := Option.some.inj success
        exact readCommands_invariant invariant isClient free
  | eof fd =>
      simp only [step] at success
      split at success
      · obtain rfl := Option.some.inj success
        exact invariant
      · obtain ⟨server, read, rfl⟩ := Option.map_eq_some_iff.mp success
        exact invariant.frame (readEof_frame read)
  | assemble port options signals =>
      obtain rfl := Option.some.inj success
      refine invariant.frame (.updateBus _ port fun dev exited => ?_)
      rw [initializeBus_exited]
      exact exited
  | check port =>
      obtain rfl := Option.some.inj success
      refine invariant.frame (.updateBus _ port fun dev exited => ?_)
      rw [checkBus_exited]
      exact exited
  | busReady port signals =>
      obtain rfl := Option.some.inj success
      exact invariant.frame
        (.updateBus _ port fun dev exited => busReady_exited exited)

/-- A HELLO for a device of a live client is never refused. -/
theorem not_refusesTaken
    (invariant : PlugInvariant config.toConfig state.server)
    {event : PlugEvent}
    (taken : state.HelloTaken event)
    (success : state.step config event = some next) :
    ¬ state.RefusesTaken event next := by
  intro refuses
  obtain ⟨fd, client, name, isHello, owner, live⟩ := taken
  have answered := (refuses fd client name isHello ⟨owner, live⟩).1
  have isDevice : name ∈ config.devices client.bus := by
    obtain ⟨found, isFound, sameBus, isNamed, _⟩ := live
    rw [← sameBus]
    exact invariant.known owner found isFound name isNamed
  cases event with
  | read fd' arrived =>
      simp only [helloOf] at isHello
      split at isHello
      · rename_i name' tokens rest isClient received
        obtain ⟨⟩ := isHello
        simp only [step, isClient, Option.some.injEq] at success
        subst success
        simp only [readCommands, received, processCommand] at answered
        cases isNamed : client.devName with
        | none =>
            simp [isNamed, answerHello, isDevice] at answered
        | some dev =>
            simp [isNamed] at answered
      · cases isHello
  | accept => cases isHello
  | eof => cases isHello
  | assemble => cases isHello
  | check => cases isHello
  | busReady => cases isHello

/-- Every step that executes a HELLO succeeds. -/
theorem step_isSome_of_helloTaken
    (config : PlugConfig)
    {event : PlugEvent}
    (taken : state.HelloTaken event) :
    ∃ next, state.step config event = some next := by
  obtain ⟨fd, client, name, isHello, _⟩ := taken
  cases event with
  | read fd' arrived =>
      simp only [step]
      split
      · exact ⟨_, rfl⟩
      · exact ⟨_, rfl⟩
  | accept => cases isHello
  | eof => cases isHello
  | assemble => cases isHello
  | check => cases isHello
  | busReady => cases isHello

theorem keepsPlugs_iff
    (invariant : PlugInvariant config.toConfig state.server)
    (events : List PlugEvent) :
    KeepsPlugs config state events ↔ NoTakenHello config state events := by
  induction events generalizing state with
  | nil =>
      exact ⟨fun _ => trivial, fun _ => invariant.exclusive⟩
  | cons event rest inductionHypothesis =>
      constructor
      · rintro ⟨_, keeps⟩
        have free : ¬ state.HelloTaken event := by
          intro taken
          obtain ⟨next, success⟩ :=
            step_isSome_of_helloTaken config taken
          exact not_refusesTaken invariant taken success
            (keeps next success).1
        refine ⟨free, fun next success => ?_⟩
        have invariant' := step_invariant invariant event free success
        exact (inductionHypothesis invariant').mp (keeps next success).2
      · rintro ⟨free, later⟩
        refine ⟨invariant.exclusive, fun next success => ?_⟩
        have invariant' := step_invariant invariant event free success
        refine ⟨?_,
          (inductionHypothesis invariant').mpr (later next success)⟩
        intro fd client name isHello live
        exact (free ⟨fd, client, name, isHello, live⟩).elim

theorem init_invariant (config : PlugConfig) :
    PlugInvariant config.toConfig (init config).server where
  exclusive := by
    rintro port dev first second ⟨client, isClient, _⟩
    cases isClient
  known := nofun

/--
Plugs are exclusive and taken devices are refused in a run from the start, if
and only if no HELLO of the run names a device of a live client.
-/
theorem run_keepsPlugs_iff
    (config : PlugConfig)
    (events : List PlugEvent) :
    KeepsPlugs config (init config) events ↔
      NoTakenHello config (init config) events :=
  keepsPlugs_iff (init_invariant config) events

/-! ## The turns of the service loop are runs -/

/-- A command that the loop sees as a line. -/
def commandOf : Line → Command
  | .hello name => .hello name []
  | .ready => .ready 0 0 []
  | .finish => .finish

theorem commandOf_line (line : Line) : (commandOf line).line = line := by
  cases line <;> rfl

/-- The state has the server of the loop, and its commands for the lines. -/
structure Follows (state : PlugServer) (server : Server) : Prop where
  isServer : state.server = server
  pending : ∀ fd client, server.clientMap fd = some client →
    client.buffer = (state.pending fd).map Command.line

/-- Some run leads to the server of the loop. -/
def Reaches
    (config : PlugConfig)
    (state : PlugServer)
    (server : Server) : Prop :=
  ∃ events next, run config state events = some next ∧ next.Follows server

variable {server server' : Server}

theorem Follows.reaches
    (follows : state.Follows server) :
    Reaches config state server :=
  ⟨[], state, rfl, follows⟩

theorem run_append
    (first later : List PlugEvent) :
    run config state (first ++ later) =
      (run config state first).bind fun next => run config next later := by
  induction first generalizing state with
  | nil =>
      rfl
  | cons event rest inductionHypothesis =>
      rw [List.cons_append, run, run, Option.bind_assoc]
      congr 1
      funext next
      exact inductionHypothesis

/-- Runs are put together where the first one has led. -/
theorem Reaches.andThen
    (first : Reaches config state server)
    (later : ∀ next : PlugServer, next.Follows server →
      Reaches config next server') :
    Reaches config state server' := by
  obtain ⟨events, next, success, follows⟩ := first
  obtain ⟨events', last, success', follows'⟩ := later next follows
  refine ⟨events ++ events', last, ?_, follows'⟩
  rw [run_append, success, Option.bind_some, success']

theorem reaches_of_step
    {event : PlugEvent}
    (success : state.step config event = some next)
    (follows : next.Follows server) :
    Reaches config state server :=
  ⟨[event], next, by rw [run, success]; rfl, follows⟩

/-- A step that changes only one bus follows that change. -/
theorem Follows.updateBus
    (follows : state.Follows server)
    {port : String}
    {change : BusState → BusState}
    (isChanged : next.server = state.server.updateBus port change)
    (samePending : next.pending = state.pending) :
    next.Follows (server.updateBus port change) where
  isServer := by rw [isChanged, follows.isServer]
  pending := by
    rw [samePending]
    exact follows.pending

theorem Follows.acceptOn
    (follows : state.Follows server)
    (accepted : String → Option Nat)
    (port : String) :
    Reaches config state (Service.acceptOn accepted server port) := by
  unfold Service.acceptOn
  split
  · exact follows.reaches
  · rename_i fd _
    by_cases listening : (server.busMap port).listening = true
    · rw [if_pos listening]
      have success : state.step config (.accept port fd) = some
          { state with
            server := listenReady state.server port fd
            pending := Function.update state.pending fd [] } := by
        rw [step, follows.isServer, if_pos listening]
      refine reaches_of_step success
        ⟨by rw [follows.isServer], fun other client isClient => ?_⟩
      by_cases same : other = fd
      · subst same
        simp only [listenReady, Server.setClient, Function.update_self,
          Option.some.injEq] at isClient
        subst isClient
        simp
      · simp only [listenReady, Server.setClient, ne_eq, same,
          not_false_eq_true, Function.update_of_ne] at isClient ⊢
        exact follows.pending other client isClient
    · rw [if_neg listening]
      exact follows.reaches

theorem Follows.acceptAll
    (follows : state.Follows server)
    (accepted : String → Option Nat)
    (ports : List String) :
    Reaches config state (ports.foldl (Service.acceptOn accepted) server) := by
  induction ports generalizing state server with
  | nil =>
      exact follows.reaches
  | cons port rest inductionHypothesis =>
      exact (follows.acceptOn accepted port).andThen fun _ follows' =>
        inductionHypothesis follows'

/-- A command changes one connection, whose buffer it leaves alone. -/
theorem processClientCommand_clientMap
    (config : Config)
    (server : Server)
    (fd : Nat)
    (client : ClientState)
    (line : Line) :
    ∃ client', client'.buffer = client.buffer ∧
      (processClientCommand config server fd client line).clientMap =
        Function.update server.clientMap fd (some client') := by
  unfold processClientCommand
  split
  · rename_i name _
    rw [processClientHello]
    split
    · exact ⟨{ client with devName := some name }, rfl, rfl⟩
    · exact ⟨client, rfl, rfl⟩
  all_goals exact ⟨client, rfl, rfl⟩

theorem recordLeave_clientMap
    (server : Server)
    (received : List Line) :
    (recordLeave fd received server).clientMap = server.clientMap := by
  rw [recordLeave]
  split
  · split <;> rfl
  · rfl

theorem processCommand_pending
    (command : Command) :
    (processCommand config state fd client command).pending =
      state.pending := by
  unfold processCommand
  split
  · rw [answerHello]
    split <;> rfl
  · rfl
  · rfl

theorem Follows.readFromSocket
    (follows : state.Follows server)
    (isClient : server.clientMap fd = some client)
    {result : ReadResult}
    (success : Service.readFromSocket config.toConfig server fd client
      result = some server') :
    Reaches config state server' := by
  have isClient' : state.server.clientMap fd = some client := by
    rw [follows.isServer, isClient]
  cases result with
  | eof =>
      have stepped : state.step config (.eof fd) =
          some { state with server := server' } := by
        simp only [step, isClient']
        rw [follows.isServer, success]
        rfl
      refine reaches_of_step stepped ⟨rfl, fun other found isFound => ?_⟩
      simp only [Service.readFromSocket] at success
      split at success
      · cases success
      · obtain rfl := Option.some.inj success
        exact follows.pending other found isFound
  | lines arrived =>
      have stepped :
          state.step config (.read fd (arrived.map commandOf)) =
            some (readCommands config state fd client
              (arrived.map commandOf)) := by
        simp only [step, isClient']
      refine reaches_of_step stepped ?_
      have waiting : client.buffer ++ arrived =
          (state.pending fd ++ arrived.map commandOf).map Command.line := by
        rw [List.map_append, List.map_map, follows.pending fd client isClient]
        simp [Function.comp_def, commandOf_line]
      simp only [Service.readFromSocket, waiting] at success
      unfold readCommands
      cases received : state.pending fd ++ arrived.map commandOf with
      | nil =>
          rw [received] at success
          obtain rfl := Option.some.inj success
          exact follows
      | cons command rest =>
          rw [received] at success
          obtain rfl := Option.some.inj success
          constructor
          · simp only [processCommand_server, follows.isServer, List.map_cons]
          · intro other found isFound
            simp only [processCommand_pending]
            rw [recordLeave_clientMap] at isFound
            obtain ⟨client', sameBuffer, clients⟩ :=
              processClientCommand_clientMap config.toConfig server
                fd { client with buffer := rest.map Command.line }
                command.line
            rw [clients] at isFound
            by_cases same : other = fd
            · subst same
              rw [Function.update_self, Option.some.injEq] at isFound
              subst isFound
              rw [sameBuffer, Function.update_self]
            · rw [Function.update_of_ne same] at isFound ⊢
              exact follows.pending other found isFound

theorem Follows.readAll
    (follows : state.Follows server)
    {isSet : Nat → Bool}
    {reads : List (Nat × ReadResult)}
    (success : Service.readAll config.toConfig isSet reads server =
      some server') :
    Reaches config state server' := by
  induction reads generalizing state server with
  | nil =>
      obtain rfl := Option.some.inj success
      exact follows.reaches
  | cons read rest inductionHypothesis =>
      obtain ⟨fd, result⟩ := read
      obtain ⟨middle, first, later⟩ := Option.bind_eq_some_iff.mp success
      have firstReached : Reaches config state middle := by
        rw [readOn] at first
        split at first
        · obtain rfl := Option.some.inj first
          exact follows.reaches
        · rename_i client isClient
          split at first
          · exact follows.readFromSocket isClient first
          · obtain rfl := Option.some.inj first
            exact follows.reaches
      exact firstReached.andThen fun _ follows' =>
        inductionHypothesis follows' later

/-- A pass over some buses is a series of steps, one for each bus. -/
theorem Follows.updateBuses
    (follows : state.Follows server)
    {change : String → BusState → BusState}
    (stepFor : ∀ (state : PlugServer) port, ∃ event next,
      state.step config event = some next ∧
        next.server = state.server.updateBus port (change port) ∧
        next.pending = state.pending)
    (ports : List String) :
    Reaches config state (Service.updateBuses change ports server) := by
  induction ports generalizing state server with
  | nil =>
      exact follows.reaches
  | cons port rest inductionHypothesis =>
      obtain ⟨event, next, success, isChanged, samePending⟩ :=
        stepFor state port
      have first := reaches_of_step success
        (follows.updateBus isChanged samePending)
      exact first.andThen fun _ follows' => inductionHypothesis follows'

theorem Follows.serviceRound
    (follows : state.Follows server)
    {input : Selection}
    (success : Service.serviceRound config.toConfig server input =
      some server') :
    Reaches config state server' := by
  obtain ⟨read, isRead, rfl⟩ := Option.map_eq_some_iff.mp success
  refine (follows.acceptAll input.accepted config.ports).andThen
    fun _ accepted => (accepted.readAll isRead).andThen fun _ done => ?_
  refine Reaches.andThen
    (done.updateBuses (fun state port =>
      ⟨.assemble port (state.options port) (state.signals port), _, rfl,
        rfl, rfl⟩) config.ports)
    fun _ initialized => ?_
  refine Reaches.andThen
    (initialized.updateBuses (fun _ port =>
      ⟨.check port, _, rfl, rfl, rfl⟩) config.ports)
    fun _ checked => ?_
  exact checked.updateBuses (fun state port =>
    ⟨.busReady port (state.signals port), _, rfl, rfl, rfl⟩) _

/-- Every run of the service loop is a run of the steps. -/
theorem serviceRun_reaches
    {config : PlugConfig}
    {inputs : Nat → Selection}
    {turns : Nat}
    (success : serviceRun config.toConfig inputs turns = some server) :
    Reaches config (init config) server := by
  induction turns generalizing server with
  | zero =>
      obtain rfl := Option.some.inj success
      exact Follows.reaches ⟨rfl, nofun⟩
  | succ turns inductionHypothesis =>
      obtain ⟨before, earlier, last⟩ := Option.bind_eq_some_iff.mp success
      exact (inductionHypothesis earlier).andThen fun _ follows =>
        follows.serviceRound last

/-! ## A second HELLO -/

/-- One bus with one device, whose ident is 1. -/
def hostConfig : PlugConfig where
  toConfig := loneHost
  ident := fun _ _ => 1
  options := fun _ _ => none

/-- Two connections say HELLO for the same device. -/
def secondHello : List PlugEvent :=
  [.accept "tcp:1" 3, .read 3 [.hello "host" []],
    .accept "tcp:1" 4, .read 4 [.hello "host" ["speed=fast"]]]

/-- The second connection is bound too, and its option is set. -/
theorem secondHello_not_kept :
    ¬ KeepsPlugs hostConfig (init hostConfig) secondHello := by
  intro keeps
  have refused := ((((keeps.2 _ rfl).2.2 _ rfl).2.2 _ rfl).2.2 _ rfl).1
  have answers := (refused 4 _ "host" rfl
    ⟨3, { bus := "tcp:1", devName := some "host", buffer := [] },
      rfl, rfl, rfl, rfl⟩).1
  revert answers
  decide +kernel

end PlugServer

end Simbus.Service
