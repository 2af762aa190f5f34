import Simbus.Service.History
import Mathlib

/-!
# The service loop of the server

`service_run`, the client connections and `protocol_t::bus_ready`.  One round
is one turn of the loop after `select`.  The history of a bus is no data of the
server: it records what has happened on the bus.

The signals of READY and UNTIL are the business of the bus protocol and do not
matter here.
-/

namespace Simbus.Service

/-- A line that a client sends. -/
inductive Line where
  | hello (name : String)
  | ready
  | finish
  deriving DecidableEq

/--
What one `read` returns: the lines it completes (none, for a part of a line),
or the end of the stream.
-/
inductive ReadResult where
  | lines (arrived : List Line)
  | eof

/-- The buses in the order of `bus_map`, and the devices of each bus. -/
structure Config where
  ports : List String
  portsDistinct : ports.Nodup
  devices : String → List String

structure BusDevicePlug where
  fd : Fd
  readyFlag : Bool
  exitedFlag : Bool

/--
`struct bus_state`.  `listening` says that `fd` is not -1, and
`needInitialization` that the bus is in that set.
-/
structure BusState where
  listening : Bool
  finished : Bool
  needInitialization : Bool
  deviceMap : String → BusDevicePlug
  history : List Event

/--
`client_state_t`: `bus_interface_` is the plug of the device, if it has a
name.  The buffer holds the complete lines that are not processed yet.
-/
structure ClientState where
  bus : String
  devName : Option String
  buffer : List Line

structure Server where
  busMap : String → BusState
  clientMap : Nat → Option ClientState

/-- What `service_add_bus` and `service_setup` leave behind. -/
def Server.init : Server where
  busMap := fun _ =>
    { listening := true
      finished := false
      needInitialization := true
      deviceMap := fun _ =>
        { fd := none, readyFlag := false, exitedFlag := false }
      history := [] }
  clientMap := fun _ => none

namespace BusState

def record (bus : BusState) (event : Event) : BusState :=
  { bus with history := bus.history ++ [event] }

def setPlug
    (bus : BusState)
    (dev : String)
    (plug : BusDevicePlug) : BusState :=
  { bus with deviceMap := Function.update bus.deviceMap dev plug }

end BusState

namespace Server

def updateBus
    (server : Server)
    (port : String)
    (change : BusState → BusState) : Server :=
  { server with
    busMap :=
      Function.update server.busMap port (change (server.busMap port)) }

def setClient
    (server : Server)
    (fd : Nat)
    (client : ClientState) : Server :=
  { server with
    clientMap := Function.update server.clientMap fd (some client) }

end Server

/-! ## Connections -/

/-- `listen_ready`: a new connection without a name. -/
def listenReady
    (server : Server)
    (port : String)
    (fd : Nat) : Server :=
  server.setClient fd { bus := port, devName := none, buffer := [] }

/-- `is_exited`. -/
def isExited (server : Server) (client : ClientState) : Bool :=
  match client.devName with
  | none => false
  | some dev => ((server.busMap client.bus).deviceMap dev).exitedFlag

/-- What `process_client_hello_` does to the bus for a device it knows. -/
def attach (fd : Nat) (dev : String) (bus : BusState) : BusState :=
  (bus.setPlug dev
    { bus.deviceMap dev with fd := some fd, readyFlag := false }).record
    (.youAre dev)

/-- `process_client_hello_`; an unknown device gets a NAK. -/
def processClientHello
    (config : Config)
    (server : Server)
    (fd : Nat)
    (client : ClientState)
    (name : String) : Server :=
  if name ∈ config.devices client.bus then
    (server.setClient fd { client with devName := some name }).updateBus
      client.bus (attach fd name)
  else
    server.setClient fd client

/-- What `process_client_ready_` does to the bus. -/
def markReady (dev : String) (bus : BusState) : BusState :=
  (bus.setPlug dev { bus.deviceMap dev with readyFlag := true }).record
    (.ready dev)

/-- FINISH and the end of the stream count as ready and exited. -/
def markExited (dev : String) (bus : BusState) : BusState :=
  bus.setPlug dev
    { bus.deviceMap dev with readyFlag := true, exitedFlag := true }

/-- `process_client_command_`: only the first command may be a HELLO. -/
def processClientCommand
    (config : Config)
    (server : Server)
    (fd : Nat)
    (client : ClientState)
    (line : Line) : Server :=
  match client.devName, line with
  | none, .hello name => processClientHello config server fd client name
  | none, _ => server.setClient fd client
  | some _, .hello _ => server.setClient fd client
  | some dev, .ready =>
      (server.setClient fd client).updateBus client.bus (markReady dev)
  | some dev, .finish =>
      (server.setClient fd client).updateBus client.bus (markExited dev)

/-- Record that a device has left, once its FINISH is among the lines. -/
def recordLeave
    (fd : Nat)
    (received : List Line)
    (server : Server) : Server :=
  match server.clientMap fd with
  | some { bus := port, devName := some dev, .. } =>
      if .finish ∈ received then
        server.updateBus port (BusState.record · (.leaves dev))
      else
        server
  | _ => server

/--
`read_from_socket`: one read appends to the buffer and processes at most one
line.  The end of the stream before HELLO fails an assertion.
-/
def readFromSocket
    (config : Config)
    (server : Server)
    (fd : Nat)
    (client : ClientState)
    (result : ReadResult) : Option Server :=
  match result with
  | .eof =>
      match client.devName with
      | none => none
      | some dev =>
          some (server.updateBus client.bus fun bus =>
            (markExited dev bus).record (.leaves dev))
  | .lines arrived =>
      match client.buffer ++ arrived with
      | [] => some server
      | line :: rest =>
          some <| recordLeave fd (line :: rest) <|
            processClientCommand config server fd
              { client with buffer := rest } line

/-! ## One turn of the loop -/

/--
What `select` and the calls that follow it find: a new connection on a bus,
and what can be read from the clients, in the order of `client_map`.
`peekTime` is the time of each bus.
-/
structure Selection where
  accepted : String → Option Nat
  reads : List (Nat × ReadResult)
  readsSorted : reads.Pairwise fun first second => first.1 < second.1
  peekTime : String → Nat

/-- The clients that take part in the select. -/
def selected (server : Server) (fd : Nat) : Bool :=
  match server.clientMap fd with
  | none => false
  | some client => !isExited server client

/-- Accept on one bus, unless its port is closed. -/
def acceptOn
    (accepted : String → Option Nat)
    (server : Server)
    (port : String) : Server :=
  match accepted port with
  | none => server
  | some fd =>
      if (server.busMap port).listening then
        listenReady server port fd
      else
        server

/-- The loop over the bus sockets. -/
def acceptAll
    (config : Config)
    (accepted : String → Option Nat)
    (server : Server) : Server :=
  config.ports.foldl (acceptOn accepted) server

/-- One turn of the loop over the client sockets. -/
def readOn
    (config : Config)
    (isSet : Nat → Bool)
    (server : Server)
    (fd : Nat)
    (result : ReadResult) : Option Server :=
  match server.clientMap fd with
  | none => some server
  | some client =>
      if isSet fd then
        readFromSocket config server fd client result
      else
        some server

/-- The loop over the client sockets. -/
def readAll
    (config : Config)
    (isSet : Nat → Bool) :
    List (Nat × ReadResult) → Server → Option Server
  | [], server => some server
  | (fd, result) :: rest, server =>
      (readOn config isSet server fd result).bind
        (readAll config isSet rest)

/--
The scan over the devices of a bus: it stops at the first device that is not
ready, and it marks the bus as finished at every exited one before that.
-/
def scanDevices : List String → BusState → Bool × BusState
  | [], bus => (true, bus)
  | dev :: rest, bus =>
      if (bus.deviceMap dev).readyFlag then
        scanDevices rest
          (if (bus.deviceMap dev).exitedFlag then
            { bus with finished := true }
          else
            bus)
      else
        (false, bus)

/-- `assembly_complete`, of which only `run_init` can be seen. -/
def assemblyComplete (bus : BusState) : BusState :=
  { bus with needInitialization := false }.record .runInit

/-- The initialization of a bus when all its devices are ready. -/
def initializeBus (devices : List String) (bus : BusState) : BusState :=
  if bus.needInitialization then
    let (flag, scanned) := scanDevices devices bus
    if flag then assemblyComplete scanned else scanned
  else
    bus

/-- Whether a bus goes to the run list. -/
def canRun (devices : List String) (bus : BusState) : Bool :=
  !bus.needInitialization && (scanDevices devices bus).1

/-- What the check for the run list does to the bus. -/
def checkBus (devices : List String) (bus : BusState) : BusState :=
  if bus.needInitialization then bus else (scanDevices devices bus).2

/-- The messages to all devices of a bus. -/
def recipients
    (devices : List String)
    (bus : BusState) : List (String × Fd) :=
  devices.map fun dev => (dev, (bus.deviceMap dev).fd)

/-- Clear the ready flags; `run_run` does not touch the flags. -/
def clearReady (devices : List String) (bus : BusState) : BusState :=
  { bus with
    deviceMap := fun dev =>
      if dev ∈ devices then
        { bus.deviceMap dev with readyFlag := false }
      else
        bus.deviceMap dev }

/-- Mark all devices as exited and close the port. -/
def closeBus (devices : List String) (bus : BusState) : BusState :=
  { bus with
    listening := false
    deviceMap := fun dev =>
      if dev ∈ devices then
        { bus.deviceMap dev with exitedFlag := true }
      else
        bus.deviceMap dev }

/-- `bus_ready`. -/
def busReady (devices : List String) (bus : BusState) : BusState :=
  let cleared := clearReady devices bus
  if cleared.finished then
    (closeBus devices cleared).record (.finish (recipients devices cleared))
  else
    cleared.record (.untilRound (recipients devices cleared))

/-- Change the buses of some ports one after the other. -/
def updateBuses
    (change : String → BusState → BusState)
    (ports : List String)
    (server : Server) : Server :=
  ports.foldl (fun server port => server.updateBus port (change port))
    server

/-- The buses that can run, in time order and then in the order of the map. -/
def runList
    (config : Config)
    (peekTime : String → Nat)
    (server : Server) : List String :=
  (config.ports.filter fun port =>
    canRun (config.devices port) (server.busMap port)).insertionSort
    fun first second => peekTime first ≤ peekTime second

/-- The initializations and runs at the end of a turn. -/
def runBuses
    (config : Config)
    (peekTime : String → Nat)
    (server : Server) : Server :=
  let initialized :=
    updateBuses (fun port => initializeBus (config.devices port))
      config.ports server
  let checked :=
    updateBuses (fun port => checkBus (config.devices port))
      config.ports initialized
  updateBuses (fun port => busReady (config.devices port))
    (runList config peekTime initialized) checked

/-- One turn of the loop of `service_run`. -/
def serviceRound
    (config : Config)
    (server : Server)
    (input : Selection) : Option Server :=
  (readAll config (selected server) input.reads
    (acceptAll config input.accepted server)).map
    (runBuses config input.peekTime)

/-- The server after a number of turns. -/
def serviceRun
    (config : Config)
    (inputs : Nat → Selection) : Nat → Option Server
  | 0 => some .init
  | step + 1 =>
      (serviceRun config inputs step).bind fun server =>
        serviceRound config server (inputs step)

end Simbus.Service
