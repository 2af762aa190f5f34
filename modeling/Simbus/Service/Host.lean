import Simbus.ClientSignals
import Simbus.Pointwise
import Simbus.Service.Plugs

/-!
# The server with the protocols of its buses

The service loop with the values of the READY lines, the protocol objects and the
writes to the clients.  A failed assertion, and an access outside a vector, ends
the server; so does a client that has gone when it is sent FINISH, since the
signal of the broken pipe is taken for an interrupt.
-/

namespace Simbus.Service

open FourValued

/-! ## The state -/

/-- `client_state_t` with the commands of its lines. -/
structure HostClient where
  bus : String
  devName : Option String
  buffer : List Command

/--
A bus with what its devices have reported and its protocol object.  `sigpipe`
says that a FINISH to one of its clients has raised a signal.
-/
structure BusSide (n : Nat) where
  bus : BusState
  signals : String → SignalMap String
  proto : ProtocolObject n
  sigpipe : Bool

/-- The server. -/
structure Host (config : Config) where
  sides : (port : String) → BusSide (config.devices port).length
  clientMap : Nat → Option HostClient

/-- What one `read` returns: the commands of complete lines, or the end. -/
inductive CommandRead where
  | commands (arrived : List Command)
  | eof

/--
What a turn of the loop finds: new connections, what can be read in the order of
`client_map`, the times of the buses and random numbers.  `writes` says whether
a write to a device of a bus is complete.
-/
structure HostInput where
  accepted : String → Option Nat
  reads : List (Nat × CommandRead)
  peekTime : String → Nat
  random : String → Nat
  writes : String → String → Bool

section

variable {config : Config}

/-- The server as it starts, with a protocol object for every bus. -/
def Host.start
    (protos : (port : String) → ProtocolObject (config.devices port).length) :
    Host config where
  sides := fun port =>
    { bus := Server.init.busMap port
      signals := fun _ => SignalMap.empty
      proto := protos port
      sigpipe := false }
  clientMap := fun _ => none

namespace Host

/-- `interrupted_flag`. -/
def interrupted (host : Host config) : Bool :=
  config.ports.any fun port => (host.sides port).sigpipe

/-- Change a bus. -/
def updateSide
    (host : Host config)
    (port : String)
    (change : BusSide (config.devices port).length →
      BusSide (config.devices port).length) : Host config :=
  { host with sides := Function.update host.sides port (change (host.sides port)) }

/-- Set a client. -/
def setClient
    (host : Host config)
    (fd : Nat)
    (client : HostClient) : Host config :=
  { host with clientMap := Function.update host.clientMap fd (some client) }

/-- The plug of a device. -/
def plug (host : Host config) (port dev : String) : BusDevicePlug :=
  (host.sides port).bus.deviceMap dev

end Host

/-! ## Reading -/

/-- Change the flags and connections of a bus. -/
def BusSide.onBus
    {n : Nat}
    (change : BusState → BusState)
    (side : BusSide n) : BusSide n :=
  { side with bus := change side.bus }

/-- `process_client_ready_`. -/
def BusSide.ready
    {n : Nat}
    (dev : String)
    (values : List (String × List Logic4))
    (side : BusSide n) : BusSide n :=
  { side with
    bus := markReady dev side.bus
    signals := Function.update side.signals dev
      (values.foldl (fun signals value => Function.update signals value.1 value.2)
        (side.signals dev)) }

/-- `process_client_hello_`; YOU-ARE has to be written whole. -/
def Host.hello
    (host : Host config)
    (writes : String → String → Bool)
    (fd : Nat)
    (client : HostClient)
    (name : String) : Option (Host config) :=
  if name ∈ config.devices client.bus then
    if writes client.bus name then
      some ((host.setClient fd { client with devName := some name }).updateSide
        client.bus (BusSide.onBus (attach fd name)))
    else
      none
  else
    some (host.setClient fd client)

/-- `process_client_command_`. -/
def Host.command
    (host : Host config)
    (writes : String → String → Bool)
    (fd : Nat)
    (client : HostClient)
    (command : Command) : Option (Host config) :=
  match client.devName, command with
  | none, .hello name _ => host.hello writes fd client name
  | none, _ => some (host.setClient fd client)
  | some _, .hello _ _ => some (host.setClient fd client)
  | some dev, .ready _ _ values =>
      some ((host.setClient fd client).updateSide client.bus
        (BusSide.ready dev values))
  | some dev, .finish =>
      some ((host.setClient fd client).updateSide client.bus
        (BusSide.onBus (markExited dev)))

/-- `read_from_socket`. -/
def Host.read
    (host : Host config)
    (writes : String → String → Bool)
    (fd : Nat)
    (client : HostClient) : CommandRead → Option (Host config)
  | .eof =>
      client.devName.map fun dev =>
        host.updateSide client.bus (BusSide.onBus (markExited dev))
  | .commands arrived =>
      match client.buffer ++ arrived with
      | [] => some host
      | command :: rest =>
          host.command writes fd { client with buffer := rest } command

/-- The clients that take part in the select: those that have not exited. -/
def Host.selected (host : Host config) (fd : Nat) : Bool :=
  match host.clientMap fd with
  | none => false
  | some client =>
      match client.devName with
      | none => true
      | some dev => !(host.plug client.bus dev).exitedFlag

/-- The loop over the bus sockets. -/
def Host.acceptAll
    (accepted : String → Option Nat)
    (host : Host config) : Host config :=
  config.ports.foldl
    (fun host port =>
      match accepted port with
      | none => host
      | some fd =>
          if (host.sides port).bus.listening then
            host.setClient fd { bus := port, devName := none, buffer := [] }
          else
            host)
    host

/-- The loop over the client sockets. -/
def Host.readAll
    (writes : String → String → Bool)
    (isSet : Nat → Bool) :
    List (Nat × CommandRead) → Host config → Option (Host config)
  | [], host => some host
  | (fd, result) :: rest, host =>
      match host.clientMap fd with
      | none => readAll writes isSet rest host
      | some client =>
          if isSet fd then
            (host.read writes fd client result).bind
              (readAll writes isSet rest)
          else
            readAll writes isSet rest host

/-- What a turn accepts and reads. -/
def Host.hear (host : Host config) (input : HostInput) : Option (Host config) :=
  Host.readAll input.writes host.selected input.reads
    (host.acceptAll input.accepted)

end

/-! ## Running the protocols -/

namespace BusSide

variable {devices : List String}

/-- The signals of the devices as the protocol finds them. -/
def reported (side : BusSide devices.length) : Simbus.PlugSignals devices.length :=
  fun dev => side.signals (devices.get dev)

/-- The signals of the devices as the protocol leaves them. -/
def store
    (side : BusSide devices.length)
    (signals : Simbus.PlugSignals devices.length) : BusSide devices.length :=
  { side with
    signals := fun name =>
      if known : devices.idxOf name < devices.length then
        signals ⟨devices.idxOf name, known⟩
      else
        side.signals name }

/-- The initialization of a bus when all its devices are ready. -/
def assemble
    (side : BusSide devices.length) : Option (BusSide devices.length) :=
  let initialized := side.onBus (initializeBus devices)
  if side.bus.needInitialization && (scanDevices devices side.bus).1 then
    (side.proto.runInit side.reported).map fun (proto, signals) =>
      { initialized.store signals with proto := proto }
  else
    some initialized

/-- `bus_ready`.  An UNTIL that is not written whole fails an assertion. -/
def busReady
    (random : Nat)
    (writes : String → Bool)
    (side : BusSide devices.length) : Option (BusSide devices.length) :=
  (side.proto.runRun random side.reported).bind fun proto =>
    let ran := { side.onBus (Service.busReady devices) with proto := proto }
    let written := devices.all writes
    if side.bus.finished then
      some { ran with sigpipe := side.sigpipe || !written }
    else if written then
      some ran
    else
      none

end BusSide

section

variable {config : Config}

/-- The buses of the run list, in time order and then in that of the map. -/
def Host.runList (host : Host config) (peekTime : String → Nat) : List String :=
  (config.ports.filter fun port =>
    canRun (config.devices port) (host.sides port).bus).insertionSort
    fun first second => peekTime first ≤ peekTime second

/-- The initializations and runs at the end of a turn. -/
def Host.finishTurn
    (host : Host config)
    (input : HostInput) : Option (Host config) := do
  let initialized ← Pointwise.changeAll
    (fun _ side => side.assemble) config.ports host.sides
  let running := Host.runList { host with sides := initialized } input.peekTime
  let checked ← Pointwise.changeAll
    (fun port side => some (side.onBus (checkBus (config.devices port))))
    config.ports initialized
  let ran ← Pointwise.changeAll
    (fun port side => side.busReady (input.random port) (input.writes port))
    running checked
  return { host with sides := ran }

/-- One turn of the loop. -/
def Host.turn (host : Host config) (input : HostInput) : Option (Host config) :=
  (host.hear input).bind fun heard => heard.finishTurn input

/-- The server after some turns; an interrupt ends the loop. -/
def hostRun
    (protos : (port : String) → ProtocolObject (config.devices port).length)
    (inputs : Nat → HostInput) : Nat → Option (Host config)
  | 0 => some (.start protos)
  | turn + 1 =>
      (hostRun protos inputs turn).bind fun host =>
        if host.interrupted then some host else host.turn (inputs turn)

end

end Simbus.Service
