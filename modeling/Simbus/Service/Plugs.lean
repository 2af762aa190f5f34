import Simbus.Service.Server
import Simbus.FourValued

/-!
# Device plugs and the clients that are bound to them

The service loop with the rest of the data that a HELLO touches: the options of
the bus, the signals of the plugs and the answers to the clients.  A run is a
series of steps in any order, and the turns of the service loop are such runs.
-/

namespace Simbus.Service

open FourValued

/-! ## The data of a bus -/

/-- `signal_state_map_t`, each value LSB first. -/
abbrev SignalStateMap := String → Option (List Logic4)

/-- The fields of `bus_device_plug` that the loop itself does not look at. -/
structure PlugSignals where
  readyTime : Nat
  readyScale : Int
  clientSignals : SignalStateMap
  sendSignals : SignalStateMap

/-- The options of a bus by their keys. -/
abbrev BusOptions := String → Option String

/-- What the configuration file says of the plugs and the options. -/
structure PlugConfig extends Config where
  ident : String → String → Nat
  options : String → BusOptions

/-- A command with its arguments. -/
inductive Command where
  | hello (name : String) (tokens : List String)
  | ready
      (time : Nat)
      (scale : Int)
      (values : List (String × List Logic4))
  | finish

/-- The line of a command as the service loop sees it. -/
def Command.line : Command → Line
  | .hello name _ => .hello name
  | .ready .. => .ready
  | .finish => .finish

/-- What `process_client_hello_` writes. -/
inductive HelloAnswer where
  | youAre (ident : Nat)
  | nak
  deriving DecidableEq

/--
The server with all the data of a HELLO.  `pending` has the commands of the
lines that wait in the buffer of a connection.
-/
structure PlugServer where
  server : Server
  options : String → BusOptions
  signals : String → String → PlugSignals
  pending : Nat → List Command
  answers : List (Nat × HelloAnswer)

namespace PlugServer

def init (config : PlugConfig) : PlugServer where
  server := .init
  options := config.options
  signals := fun _ _ =>
    { readyTime := 0
      readyScale := 0
      clientSignals := fun _ => none
      sendSignals := fun _ => none }
  pending := fun _ => []
  answers := []

/-- Everything that the plug of a device holds. -/
def plug
    (state : PlugServer)
    (port dev : String) : BusDevicePlug × PlugSignals :=
  ((state.server.busMap port).deviceMap dev, state.signals port dev)

end PlugServer

/-! ## Commands -/

/-- A token is split at its first `=`. -/
def splitOption (token : String) : Option (String × String) :=
  match token.toList.dropWhile (· ≠ '=') with
  | [] => none
  | _ :: value =>
      some (String.ofList (token.toList.takeWhile (· ≠ '=')),
        String.ofList value)

/-- An option that is set already keeps its value. -/
def insertOption (options : BusOptions) (token : String) : BusOptions :=
  match splitOption token with
  | none => options
  | some (key, val) =>
      if (options key).isSome then
        options
      else
        Function.update options key (some val)

/-- The values of a READY replace those of the signals they name. -/
def assignSignals
    (signals : SignalStateMap)
    (values : List (String × List Logic4)) : SignalStateMap :=
  values.foldl
    (fun signals value => Function.update signals value.1 (some value.2))
    signals

namespace PlugServer

/-- `process_client_hello_` beyond what the loop sees of it. -/
def answerHello
    (config : PlugConfig)
    (state : PlugServer)
    (fd : Nat)
    (port name : String)
    (tokens : List String) : PlugServer :=
  if name ∈ config.devices port then
    { state with
      options := Function.update state.options port
        (tokens.foldl insertOption (state.options port))
      answers := state.answers ++ [(fd, .youAre (config.ident port name))] }
  else
    { state with answers := state.answers ++ [(fd, .nak)] }

/-- `process_client_ready_` beyond what the loop sees of it. -/
def storeReady
    (state : PlugServer)
    (port dev : String)
    (time : Nat)
    (scale : Int)
    (values : List (String × List Logic4)) : PlugServer :=
  let old := state.signals port dev
  let new : PlugSignals :=
    { old with
      readyTime := time
      readyScale := scale
      clientSignals := assignSignals old.clientSignals values }
  { state with
    signals := Function.update state.signals port
      (Function.update (state.signals port) dev new) }

/-- `process_client_command_` with the arguments. -/
def processCommand
    (config : PlugConfig)
    (state : PlugServer)
    (fd : Nat)
    (client : ClientState)
    (command : Command) : PlugServer :=
  let served :=
    { state with
      server := processClientCommand config.toConfig state.server fd client
        command.line }
  match client.devName, command with
  | none, .hello name tokens =>
      answerHello config served fd client.bus name tokens
  | some dev, .ready time scale values =>
      storeReady served client.bus dev time scale values
  | _, _ => served

/-- `read_from_socket` for data: the first command that waits is processed. -/
def readCommands
    (config : PlugConfig)
    (state : PlugServer)
    (fd : Nat)
    (client : ClientState)
    (arrived : List Command) : PlugServer :=
  match state.pending fd ++ arrived with
  | [] => state
  | command :: rest =>
      let processed :=
        processCommand config
          { state with pending := Function.update state.pending fd rest }
          fd { client with buffer := rest.map Command.line } command
      { processed with
        server := recordLeave fd ((command :: rest).map Command.line)
          processed.server }

end PlugServer

/-! ## Steps -/

/--
A step of the server.  What the protocol makes of the options and the signals
when it is initialized or run is its own business.
-/
inductive PlugEvent where
  | accept (port : String) (fd : Nat)
  | read (fd : Nat) (arrived : List Command)
  | eof (fd : Nat)
  | assemble
      (port : String)
      (options : BusOptions)
      (signals : String → PlugSignals)
  | check (port : String)
  | busReady (port : String) (signals : String → PlugSignals)

namespace PlugServer

/-- One step; the end of a stream before HELLO fails an assertion. -/
def step
    (config : PlugConfig)
    (state : PlugServer) : PlugEvent → Option PlugServer
  | .accept port fd =>
      if (state.server.busMap port).listening then
        some { state with
          server := listenReady state.server port fd
          pending := Function.update state.pending fd [] }
      else
        some state
  | .read fd arrived =>
      match state.server.clientMap fd with
      | none => some state
      | some client => some (readCommands config state fd client arrived)
  | .eof fd =>
      match state.server.clientMap fd with
      | none => some state
      | some client =>
          (readFromSocket config.toConfig state.server fd client .eof).map
            fun server => { state with server := server }
  | .assemble port options signals =>
      some { state with
        server := state.server.updateBus port
          (initializeBus (config.devices port))
        options := Function.update state.options port options
        signals := Function.update state.signals port signals }
  | .check port =>
      some { state with
        server := state.server.updateBus port
          (checkBus (config.devices port)) }
  | .busReady port signals =>
      some { state with
        server := state.server.updateBus port
          (Simbus.Service.busReady (config.devices port))
        signals := Function.update state.signals port signals }

/-- A series of steps. -/
def run (config : PlugConfig) :
    PlugServer → List PlugEvent → Option PlugServer
  | state, [] => some state
  | state, event :: rest =>
      (state.step config event).bind fun next => run config next rest

end PlugServer

end Simbus.Service
