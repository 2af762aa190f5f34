import Simbus.Service.BusInvariant

/-!
# Runs of the service loop

In a run in which no device is named on a closed bus and no FINISH is left in
a buffer, every bus lives a proper life.
-/

namespace Simbus.Service

variable {config : Config}
variable {server server' : Server}

/-! ## The state between turns -/

/-- A named client has the name of a device that was connected. -/
def Named
    (config : Config)
    (server : Server)
    (client : ClientState) : Prop :=
  ∀ dev, client.devName = some dev →
    dev ∈ config.devices client.bus ∧
      ((server.busMap client.bus).deviceMap dev).fd.isSome = true

structure ServerInvariant (config : Config) (server : Server) : Prop where
  buses : ∀ port, BusInvariant (config.devices port) (server.busMap port)
  clients : ∀ fd client, server.clientMap fd = some client →
    Named config server client

@[simp] theorem Server.updateBus_self
    (server : Server)
    (port : String)
    (change : BusState → BusState) :
    (server.updateBus port change).busMap port =
      change (server.busMap port) := by
  simp [Server.updateBus]

theorem Server.updateBus_other
    (server : Server)
    {port other : String}
    (change : BusState → BusState)
    (apart : other ≠ port) :
    (server.updateBus port change).busMap other = server.busMap other := by
  simp [Server.updateBus, apart]

theorem init_serverInvariant (config : Config) :
    ServerInvariant config .init where
  buses := fun port => init_busInvariant (config.devices port) port
  clients := nofun

/-- A change of a bus that keeps its invariant and its connections. -/
theorem ServerInvariant.updateBus
    (invariant : ServerInvariant config server)
    {port : String}
    {change : BusState → BusState}
    (bus : BusInvariant (config.devices port) (change (server.busMap port)))
    (connected : ∀ dev,
      ((server.busMap port).deviceMap dev).fd.isSome = true →
      ((change (server.busMap port)).deviceMap dev).fd.isSome = true) :
    ServerInvariant config (server.updateBus port change) where
  buses := by
    intro other
    by_cases same : other = port
    · subst same
      rw [Server.updateBus_self]
      exact bus
    · rw [server.updateBus_other change same]
      exact invariant.buses other
  clients := by
    intro fd client isClient dev isNamed
    obtain ⟨isDevice, isConnected⟩ :=
      invariant.clients fd client isClient dev isNamed
    refine ⟨isDevice, ?_⟩
    by_cases same : client.bus = port
    · rw [same] at isConnected ⊢
      rw [Server.updateBus_self]
      exact connected dev isConnected
    · rw [server.updateBus_other change same]
      exact isConnected

theorem ServerInvariant.setClient
    (invariant : ServerInvariant config server)
    {fd : Nat}
    {client : ClientState}
    (isNamed : Named config server client) :
    ServerInvariant config (server.setClient fd client) where
  buses := invariant.buses
  clients := by
    intro other otherClient isClient
    by_cases same : other = fd
    · subst same
      simp only [Server.setClient, Function.update_self,
        Option.some.injEq] at isClient
      subst isClient
      exact isNamed
    · simp only [Server.setClient, Function.update_of_ne same] at isClient
      exact invariant.clients other otherClient isClient

/-! ## Reading from one client -/

/-- The device a client belongs to once the line has been processed. -/
def claimedDevice
    (config : Config)
    (client : ClientState)
    (line : Line) : Option String :=
  match client.devName, line with
  | some dev, _ => some dev
  | none, .hello name =>
      if name ∈ config.devices client.bus then some name else none
  | none, _ => none

theorem claimedDevice_named
    {client : ClientState}
    {dev : String}
    (isNamed : client.devName = some dev)
    (line : Line) :
    claimedDevice config client line = some dev := by
  simp [claimedDevice, isNamed]

/-- Only a HELLO names a client. -/
theorem claimedDevice_finish
    (client : ClientState) :
    claimedDevice config client .finish = client.devName := by
  cases isNamed : client.devName <;> simp [claimedDevice, isNamed]

/--
The lines received from a client neither name a device of a closed bus nor
leave a FINISH of a device unprocessed.
-/
def OrderlyLines
    (config : Config)
    (server : Server)
    (client : ClientState) : List Line → Prop
  | [] => True
  | line :: rest =>
      (claimedDevice config client line).isSome = true →
        (client.devName = none →
          (server.busMap client.bus).listening = true) ∧
        .finish ∉ rest

/-- A read with orderly lines, or the end of a stream. -/
def OrderlyRead
    (config : Config)
    (server : Server)
    (client : ClientState) : ReadResult → Prop
  | .eof => True
  | .lines arrived =>
      OrderlyLines config server client (client.buffer ++ arrived)

instance
    (client : ClientState)
    (received : List Line) :
    Decidable (OrderlyLines config server client received) :=
  match received with
  | [] => .isTrue trivial
  | _ :: _ => inferInstanceAs (Decidable (_ → _ ∧ _))

instance
    (client : ClientState)
    (result : ReadResult) :
    Decidable (OrderlyRead config server client result) :=
  match result with
  | .eof => .isTrue trivial
  | .lines _ => inferInstanceAs (Decidable (OrderlyLines _ _ _ _))

/-- What a read of one client leaves alone. -/
structure ReadFrame (fd : Nat) (server server' : Server) : Prop where
  clients : ∀ other, other ≠ fd →
    server'.clientMap other = server.clientMap other
  listening : ∀ port,
    (server'.busMap port).listening = (server.busMap port).listening

theorem ReadFrame.refl
    (fd : Nat)
    (server : Server) :
    ReadFrame fd server server :=
  ⟨fun _ _ => rfl, fun _ => rfl⟩

theorem ReadFrame.setClient
    (fd : Nat)
    (client : ClientState)
    (server : Server) :
    ReadFrame fd server (server.setClient fd client) where
  clients := fun other apart => by
    simp [Server.setClient, apart]
  listening := fun _ => rfl

theorem ReadFrame.updateBus
    {fd : Nat}
    (frame : ReadFrame fd server server')
    {port : String}
    {change : BusState → BusState}
    (same : (change (server'.busMap port)).listening =
      (server'.busMap port).listening) :
    ReadFrame fd server (server'.updateBus port change) where
  clients := frame.clients
  listening := by
    intro other
    rw [← frame.listening other]
    by_cases isPort : other = port
    · subst isPort
      rw [Server.updateBus_self]
      exact same
    · rw [server'.updateBus_other change isPort]

section

variable {fd : Nat}
variable {client : ClientState}

/-- A plug that gets or keeps a connection. -/
theorem setPlug_connected
    {bus : BusState}
    {dev : String}
    {plug : BusDevicePlug}
    (keeps : (bus.deviceMap dev).fd.isSome = true → plug.fd.isSome = true)
    (other : String)
    (connected : (bus.deviceMap other).fd.isSome = true) :
    ((bus.setPlug dev plug).deviceMap other).fd.isSome = true := by
  by_cases same : other = dev
  · subst same
    rw [BusState.setPlug_self]
    exact keeps connected
  · rw [BusState.setPlug_other bus plug same]
    exact connected

/-- What processing a line does. -/
structure Processed
    (config : Config)
    (server : Server)
    (fd : Nat)
    (client : ClientState)
    (line : Line)
    (server' : Server) : Prop where
  invariant : ServerInvariant config server'
  frame : ReadFrame fd server server'
  after : ∃ after, server'.clientMap fd = some after ∧
    after.bus = client.bus ∧
    after.devName = claimedDevice config client line
  exited : ∀ dev, client.devName = some dev → line = .finish →
    ((server'.busMap client.bus).deviceMap dev).exitedFlag = true

/-- A line that changes nothing but the buffer. -/
theorem processed_ignored
    (invariant : ServerInvariant config server)
    (named : Named config server client)
    {line : Line}
    (sameName : claimedDevice config client line = client.devName)
    (notFinish : client.devName.isSome = true → line ≠ .finish) :
    Processed config server fd client line (server.setClient fd client) where
  invariant := invariant.setClient named
  frame := .setClient fd client server
  after := ⟨client, by simp [Server.setClient], rfl, sameName.symm⟩
  exited := by
    intro dev isNamed isFinish
    exact (notFinish (by rw [isNamed]; rfl) isFinish).elim

/-- HELLO of a device of an open bus. -/
theorem processed_hello
    (invariant : ServerInvariant config server)
    (unnamed : client.devName = none)
    {name : String}
    (isDevice : name ∈ config.devices client.bus)
    (listening : (server.busMap client.bus).listening = true) :
    Processed config server fd client (.hello name)
      ((server.setClient fd { client with devName := some name }).updateBus
        client.bus (attach fd name)) where
  invariant := by
    -- The bus may as well be changed first.
    change ServerInvariant config
      ((server.updateBus client.bus (attach fd name)).setClient fd
        { client with devName := some name })
    refine (invariant.updateBus
      ((invariant.buses client.bus).attach listening fd name)
      (setPlug_connected fun _ => rfl)).setClient ?_
    intro dev isNamed
    obtain rfl := Option.some.inj isNamed
    refine ⟨isDevice, ?_⟩
    rw [Server.updateBus_self, attach, BusState.record,
      BusState.setPlug_self]
    rfl
  frame := (ReadFrame.setClient fd _ server).updateBus rfl
  after := by
    refine ⟨{ client with devName := some name }, ?_, rfl, ?_⟩
    · simp [Server.updateBus, Server.setClient]
    · simp [claimedDevice, unnamed, isDevice]
  exited := by
    intro dev isNamed
    rw [unnamed] at isNamed
    cases isNamed

/-- READY or FINISH of a named client of an open bus. -/
theorem processed_named
    (invariant : ServerInvariant config server)
    (named : Named config server client)
    {dev : String}
    (isNamed : client.devName = some dev)
    {line : Line}
    {change : BusState → BusState}
    (sameListening : (change (server.busMap client.bus)).listening =
      (server.busMap client.bus).listening)
    (bus : BusInvariant (config.devices client.bus)
      (change (server.busMap client.bus)))
    (connected : ∀ dev,
      ((server.busMap client.bus).deviceMap dev).fd.isSome = true →
      ((change (server.busMap client.bus)).deviceMap dev).fd.isSome = true)
    (exited : line = .finish →
      ((change (server.busMap client.bus)).deviceMap dev).exitedFlag =
        true) :
    Processed config server fd client line
      ((server.setClient fd client).updateBus client.bus change) where
  invariant :=
    ServerInvariant.updateBus (invariant.setClient named) bus connected
  frame := (ReadFrame.setClient fd client server).updateBus sameListening
  after := by
    refine ⟨client, ?_, rfl, ?_⟩
    · simp [Server.updateBus, Server.setClient]
    · rw [claimedDevice_named isNamed, isNamed]
  exited := by
    intro other isOther isFinish
    rw [isNamed, Option.some.injEq] at isOther
    subst isOther
    rw [Server.updateBus_self]
    exact exited isFinish

/-- A line of a client that belongs to a device only on an open bus. -/
theorem processClientCommand_spec
    (invariant : ServerInvariant config server)
    (named : Named config server client)
    (line : Line)
    (opened : (claimedDevice config client line).isSome = true →
      (server.busMap client.bus).listening = true) :
    Processed config server fd client line
      (processClientCommand config server fd client line) := by
  unfold processClientCommand
  cases isNamed : client.devName with
  | none =>
      cases line with
      | hello name =>
          simp only [processClientHello]
          split
          · rename_i isDevice
            apply processed_hello invariant isNamed isDevice
            apply opened
            simp [claimedDevice, isNamed, isDevice]
          · rename_i unknown
            apply processed_ignored invariant named
            · simp [claimedDevice, isNamed, unknown]
            · simp [isNamed]
      | ready =>
          apply processed_ignored invariant named
          · simp [claimedDevice, isNamed]
          · simp [isNamed]
      | finish =>
          apply processed_ignored invariant named
          · simp [claimedDevice, isNamed]
          · simp [isNamed]
  | some dev =>
      have bus := invariant.buses client.bus
      have isConnected := (named dev isNamed).2
      have listening := opened (by rw [claimedDevice_named isNamed]; rfl)
      cases line with
      | hello name =>
          apply processed_ignored invariant named
          · rw [claimedDevice_named isNamed, isNamed]
          · exact fun _ => Line.noConfusion
      | ready =>
          exact processed_named invariant named isNamed rfl
            (bus.markReady listening isConnected)
            (setPlug_connected id) Line.noConfusion
      | finish =>
          apply processed_named invariant named isNamed rfl
            (bus.markExited listening isConnected)
            (setPlug_connected id)
          intro _
          rw [markExited, BusState.setPlug_self]

/-- Once FINISH is received, the device is recorded to have left. -/
theorem recordLeave_spec
    {line : Line}
    {rest : List Line}
    (processed : Processed config server fd client line server')
    (opened : (claimedDevice config client line).isSome = true →
      (server.busMap client.bus).listening = true ∧ .finish ∉ rest) :
    ServerInvariant config (recordLeave fd (line :: rest) server') ∧
      ReadFrame fd server (recordLeave fd (line :: rest) server') := by
  obtain ⟨invariant, frame, ⟨after, isAfter, sameBus, sameName⟩, exited⟩ :=
    processed
  unfold recordLeave
  rw [isAfter]
  obtain ⟨port, devName, buffer⟩ := after
  simp only at sameBus sameName
  subst sameBus sameName
  cases isNamed : claimedDevice config client line with
  | none =>
      exact ⟨invariant, frame⟩
  | some dev =>
      simp only
      split
      · rename_i received
        obtain ⟨listening, notLeft⟩ := opened (by rw [isNamed]; rfl)
        have isFinish : line = .finish := by
          rcases List.mem_cons.mp received with same | later
          · exact same.symm
          · exact (notLeft later).elim
        subst isFinish
        have wasNamed : client.devName = some dev :=
          (claimedDevice_finish client).symm.trans isNamed
        have isDevice :=
          (invariant.clients fd _ isAfter dev isNamed).1
        rw [← frame.listening client.bus] at listening
        constructor
        · exact invariant.updateBus
            ((invariant.buses client.bus).recordLeave listening isDevice
              (exited dev wasNamed rfl))
            fun _ connected => connected
        · exact frame.updateBus rfl
      · exact ⟨invariant, frame⟩

/-- A read keeps the invariant if it is orderly. -/
theorem readFromSocket_spec
    (invariant : ServerInvariant config server)
    (isClient : server.clientMap fd = some client)
    (opened : ∀ dev, client.devName = some dev →
      (server.busMap client.bus).listening = true)
    {result : ReadResult}
    (orderly : OrderlyRead config server client result)
    (success : readFromSocket config server fd client result =
      some server') :
    ServerInvariant config server' ∧ ReadFrame fd server server' := by
  have named := invariant.clients fd client isClient
  cases result with
  | eof =>
      unfold readFromSocket at success
      cases isNamed : client.devName with
      | none =>
          rw [isNamed] at success
          cases success
      | some dev =>
          rw [isNamed] at success
          simp only [Option.some.injEq] at success
          subst success
          have listening := opened dev isNamed
          obtain ⟨isDevice, isConnected⟩ := named dev isNamed
          have exited :=
            (invariant.buses client.bus).markExited listening isConnected
          constructor
          · refine invariant.updateBus
              (exited.recordLeave listening isDevice ?_)
              (setPlug_connected id)
            rw [markExited, BusState.setPlug_self]
          · exact (ReadFrame.refl fd server).updateBus rfl
  | lines arrived =>
      unfold readFromSocket at success
      simp only at success
      cases received : client.buffer ++ arrived with
      | nil =>
          rw [received] at success
          obtain rfl := Option.some.inj success
          exact ⟨invariant, .refl fd server⟩
      | cons line rest =>
          rw [received] at success
          obtain rfl := Option.some.inj success
          rw [OrderlyRead, received] at orderly
          have belongs :
              (claimedDevice config client line).isSome = true →
                (server.busMap client.bus).listening = true ∧
                  .finish ∉ rest := by
            intro claimed
            obtain ⟨listening, notLeft⟩ := orderly claimed
            refine ⟨?_, notLeft⟩
            cases isNamed : client.devName with
            | none =>
                exact listening isNamed
            | some dev =>
                exact opened dev isNamed
          let current : ClientState := { client with buffer := rest }
          have stillNamed : Named config server current := named
          have processed :
              Processed config server fd current line
                (processClientCommand config server fd current line) :=
            processClientCommand_spec invariant stillNamed line
              fun claimed => (belongs claimed).1
          exact recordLeave_spec processed belongs

/-! ## Reading from all clients -/

/-- All reads of a turn are orderly. -/
def OrderlyReads
    (config : Config)
    (isSet : Nat → Bool) :
    List (Nat × ReadResult) → Server → Prop
  | [], _ => True
  | (fd, result) :: rest, server =>
      (∀ client ∈ server.clientMap fd, isSet fd = true →
        OrderlyRead config server client result) ∧
      ∀ server' ∈ readOn config isSet server fd result,
        OrderlyReads config isSet rest server'

instance decidableOrderlyReads
    (isSet : Nat → Bool) :
    (reads : List (Nat × ReadResult)) → (server : Server) →
      Decidable (OrderlyReads config isSet reads server)
  | [], _ => .isTrue trivial
  | _ :: rest, _ =>
      have := decidableOrderlyReads isSet rest
      inferInstanceAs (Decidable ((∀ client ∈ _, _ → _) ∧ ∀ server' ∈ _, _))

/-- A client that still has to be read and has a name is on an open bus. -/
def PendingOpen
    (isSet : Nat → Bool)
    (fds : List Nat)
    (server : Server) : Prop :=
  ∀ fd ∈ fds, isSet fd = true →
    ∀ client dev, server.clientMap fd = some client →
      client.devName = some dev →
      (server.busMap client.bus).listening = true

theorem readOn_spec
    {isSet : Nat → Bool}
    {fds : List Nat}
    (invariant : ServerInvariant config server)
    (pending : PendingOpen isSet (fd :: fds) server)
    (fresh : fd ∉ fds)
    {result : ReadResult}
    (orderly : ∀ client, server.clientMap fd = some client →
      isSet fd = true → OrderlyRead config server client result)
    (success : readOn config isSet server fd result = some server') :
    ServerInvariant config server' ∧ PendingOpen isSet fds server' := by
  have outcome :
      ServerInvariant config server' ∧ ReadFrame fd server server' := by
    unfold readOn at success
    cases isClient : server.clientMap fd with
    | none =>
        rw [isClient] at success
        obtain rfl := Option.some.inj success
        exact ⟨invariant, .refl fd server⟩
    | some client =>
        rw [isClient] at success
        simp only at success
        split at success
        · rename_i set
          have opened := fun dev =>
            pending fd List.mem_cons_self set client dev isClient
          exact readFromSocket_spec invariant isClient opened
            (orderly client isClient set) success
        · obtain rfl := Option.some.inj success
          exact ⟨invariant, .refl fd server⟩
  obtain ⟨invariant', frame⟩ := outcome
  refine ⟨invariant', ?_⟩
  intro other member set client dev isClient isNamed
  have apart : other ≠ fd := fun same => fresh (same ▸ member)
  rw [frame.clients other apart] at isClient
  rw [frame.listening]
  exact pending other (List.mem_cons_of_mem fd member) set client dev
    isClient isNamed

theorem readAll_spec
    {isSet : Nat → Bool}
    {reads : List (Nat × ReadResult)}
    (invariant : ServerInvariant config server)
    (pending : PendingOpen isSet (reads.map Prod.fst) server)
    (distinct : (reads.map Prod.fst).Nodup)
    (orderly : OrderlyReads config isSet reads server)
    (success : readAll config isSet reads server = some server') :
    ServerInvariant config server' := by
  induction reads generalizing server with
  | nil =>
      obtain rfl := Option.some.inj success
      exact invariant
  | cons read rest inductionHypothesis =>
      obtain ⟨fd, result⟩ := read
      obtain ⟨middle, first, later⟩ := Option.bind_eq_some_iff.mp success
      rw [List.map_cons, List.nodup_cons] at distinct
      obtain ⟨invariant', pending'⟩ :=
        readOn_spec invariant pending distinct.1 orderly.1 first
      exact inductionHypothesis invariant' pending' distinct.2
        (orderly.2 middle first) later

/-! ## Accepting connections -/

theorem acceptOn_spec
    (invariant : ServerInvariant config server)
    (accepted : String → Option Nat)
    (port : String) :
    ServerInvariant config (acceptOn accepted server port) := by
  unfold acceptOn
  split
  · exact invariant
  · split
    · exact invariant.setClient nofun
    · exact invariant

/-- After accepting, a named client is one that was there before. -/
theorem acceptOn_named
    (accepted : String → Option Nat)
    (server : Server)
    (port : String)
    {fd : Nat}
    {client : ClientState}
    {dev : String}
    (isClient : (acceptOn accepted server port).clientMap fd = some client)
    (isNamed : client.devName = some dev) :
    server.clientMap fd = some client := by
  unfold acceptOn at isClient
  split at isClient
  · exact isClient
  · rename_i newFd _
    split at isClient
    · by_cases same : fd = newFd
      · subst same
        simp only [listenReady, Server.setClient, Function.update_self,
          Option.some.injEq] at isClient
        subst isClient
        cases isNamed
      · simpa [listenReady, Server.setClient, same] using isClient
    · exact isClient

theorem acceptOn_busMap
    (accepted : String → Option Nat)
    (server : Server)
    (port : String) :
    (acceptOn accepted server port).busMap = server.busMap := by
  unfold acceptOn
  split
  · rfl
  · split <;> rfl

/-- Accepting names nobody and changes no bus. -/
theorem acceptAll_spec
    (invariant : ServerInvariant config server)
    (accepted : String → Option Nat) :
    ServerInvariant config (acceptAll config accepted server) ∧
      (acceptAll config accepted server).busMap = server.busMap ∧
      ∀ fd client dev,
        (acceptAll config accepted server).clientMap fd = some client →
        client.devName = some dev →
        server.clientMap fd = some client := by
  unfold acceptAll
  induction config.ports generalizing server with
  | nil =>
      exact ⟨invariant, rfl, fun _ _ _ isClient _ => isClient⟩
  | cons port rest inductionHypothesis =>
      obtain ⟨invariant', sameBuses, older⟩ :=
        inductionHypothesis (acceptOn_spec invariant accepted port)
      refine ⟨invariant', sameBuses.trans (acceptOn_busMap _ _ _), ?_⟩
      intro fd client dev isClient isNamed
      exact acceptOn_named accepted server port
        (older fd client dev isClient isNamed) isNamed

/-- On a closed bus every named client has exited and is not selected. -/
theorem ServerInvariant.pendingOpen
    (invariant : ServerInvariant config server)
    (accepted : String → Option Nat)
    (fds : List Nat) :
    PendingOpen (selected server) fds
      (acceptAll config accepted server) := by
  obtain ⟨_, sameBuses, older⟩ := acceptAll_spec invariant accepted
  intro fd _ set client dev isClient isNamed
  have before := older fd client dev isClient isNamed
  rw [sameBuses]
  by_contra notListening
  rw [Bool.not_eq_true] at notListening
  have isDevice := (invariant.clients fd client before dev isNamed).1
  obtain ⟨_, allExited⟩ :=
    (invariant.buses client.bus).closed notListening
  simp [selected, before, isExited, isNamed,
    (allExited dev isDevice).2] at set

end

/-! ## Initializations and runs -/

/-- Buses that are changed one after the other are changed each on its own. -/
theorem updateBuses_busMap
    (change : String → BusState → BusState)
    {ports : List String}
    (distinct : ports.Nodup)
    (server : Server)
    (port : String) :
    (updateBuses change ports server).busMap port =
      if port ∈ ports then
        change port (server.busMap port)
      else
        server.busMap port := by
  induction ports generalizing server with
  | nil =>
      rfl
  | cons first rest inductionHypothesis =>
      rw [List.nodup_cons] at distinct
      rw [updateBuses, List.foldl_cons]
      change (updateBuses change rest _).busMap port = _
      rw [inductionHypothesis distinct.2]
      by_cases same : port = first
      · subst same
        simp [distinct.1]
      · rw [server.updateBus_other (change first) same]
        simp [same]

theorem updateBuses_clientMap
    (change : String → BusState → BusState)
    (ports : List String)
    (server : Server) :
    (updateBuses change ports server).clientMap = server.clientMap := by
  induction ports generalizing server with
  | nil =>
      rfl
  | cons first rest inductionHypothesis =>
      exact inductionHypothesis (server.updateBus first (change first))

/-- What a pass over some buses needs to keep of each of them. -/
theorem ServerInvariant.updateBuses
    (invariant : ServerInvariant config server)
    {change : String → BusState → BusState}
    {ports : List String}
    (distinct : ports.Nodup)
    (buses : ∀ port ∈ ports,
      BusInvariant (config.devices port) (change port (server.busMap port)))
    (connected : ∀ port ∈ ports, ∀ dev,
      ((change port (server.busMap port)).deviceMap dev).fd =
        ((server.busMap port).deviceMap dev).fd) :
    ServerInvariant config (updateBuses change ports server) where
  buses := by
    intro port
    rw [updateBuses_busMap change distinct]
    split
    · exact buses port ‹_›
    · exact invariant.buses port
  clients := by
    intro fd client isClient dev isNamed
    rw [updateBuses_clientMap] at isClient
    obtain ⟨isDevice, isConnected⟩ :=
      invariant.clients fd client isClient dev isNamed
    refine ⟨isDevice, ?_⟩
    rw [updateBuses_busMap change distinct]
    split
    · rw [connected client.bus ‹_› dev]
      exact isConnected
    · exact isConnected

theorem scanDevices_fd
    (devices : List String)
    (bus : BusState)
    (dev : String) :
    ((scanDevices devices bus).2.deviceMap dev).fd =
      (bus.deviceMap dev).fd := by
  obtain ⟨finished, shape, _⟩ := scanDevices_shape devices bus
  rw [shape]

theorem initializeBus_fd
    (devices : List String)
    (bus : BusState)
    (dev : String) :
    ((initializeBus devices bus).deviceMap dev).fd =
      (bus.deviceMap dev).fd := by
  unfold initializeBus
  split
  · simp only
    split <;> exact scanDevices_fd devices bus dev
  · rfl

theorem checkBus_fd
    (devices : List String)
    (bus : BusState)
    (dev : String) :
    ((checkBus devices bus).deviceMap dev).fd = (bus.deviceMap dev).fd := by
  unfold checkBus
  split
  · rfl
  · exact scanDevices_fd devices bus dev

theorem busReady_fd
    (devices : List String)
    (bus : BusState)
    (dev : String) :
    ((busReady devices bus).deviceMap dev).fd = (bus.deviceMap dev).fd := by
  have cleared :
      ((clearReady devices bus).deviceMap dev).fd =
        (bus.deviceMap dev).fd := by
    simp only [clearReady]
    split <;> rfl
  rw [← cleared]
  unfold busReady
  simp only
  split
  · simp only [closeBus, BusState.record]
    split <;> rfl
  · rfl

/-- The end of a turn keeps the invariant. -/
theorem runBuses_spec
    (invariant : ServerInvariant config server)
    (peekTime : String → Nat) :
    ServerInvariant config (runBuses config peekTime server) := by
  have initialized :
      ServerInvariant config
        (updateBuses (fun port => initializeBus (config.devices port))
          config.ports server) :=
    invariant.updateBuses config.portsDistinct
      (fun port _ => (invariant.buses port).initializeBus)
      fun port _ => initializeBus_fd (config.devices port) _
  unfold runBuses
  simp only
  generalize updateBuses (fun port => initializeBus (config.devices port))
    config.ports server = middle at initialized ⊢
  have checked :
      ServerInvariant config
        (updateBuses (fun port => checkBus (config.devices port))
          config.ports middle) :=
    initialized.updateBuses config.portsDistinct
      (fun port _ => (initialized.buses port).checkBus)
      fun port _ => checkBus_fd (config.devices port) _
  have runs : ∀ port ∈ runList config peekTime middle,
      port ∈ config.ports ∧
        canRun (config.devices port) (middle.busMap port) = true := by
    intro port member
    rw [runList, List.mem_insertionSort, List.mem_filter] at member
    exact member
  have distinct : (runList config peekTime middle).Nodup := by
    rw [runList, (List.perm_insertionSort _ _).nodup_iff]
    exact config.portsDistinct.filter _
  refine checked.updateBuses distinct ?_
    fun port _ => busReady_fd (config.devices port) _
  intro port member
  obtain ⟨isPort, canRun⟩ := runs port member
  have wasChecked := updateBuses_busMap
    (fun port => checkBus (config.devices port)) config.portsDistinct middle
    port
  rw [if_pos isPort] at wasChecked
  apply (checked.buses port).busReady
  rw [wasChecked]
  exact (initialized.buses port).canRun canRun

/-! ## Runs -/

/--
In this turn no connection is given the name of a device of a bus that has
sent FINISH, and no FINISH of a device stays unread behind another line.
-/
def OrderlyRound
    (config : Config)
    (server : Server)
    (input : Selection) : Prop :=
  OrderlyReads config (selected server) input.reads
    (acceptAll config input.accepted server)

instance
    (input : Selection) :
    Decidable (OrderlyRound config server input) :=
  inferInstanceAs (Decidable (OrderlyReads _ _ _ _))

theorem serverRound_invariant
    (invariant : ServerInvariant config server)
    {input : Selection}
    (orderly : OrderlyRound config server input)
    (success : serviceRound config server input = some server') :
    ServerInvariant config server' := by
  obtain ⟨middle, readings, rfl⟩ := Option.map_eq_some_iff.mp success
  apply runBuses_spec
  have distinct : (input.reads.map Prod.fst).Nodup := by
    rw [List.Nodup, List.pairwise_map]
    exact input.readsSorted.imp fun less => Nat.ne_of_lt less
  exact readAll_spec (acceptAll_spec invariant input.accepted).1
    (invariant.pendingOpen input.accepted _) distinct orderly readings

/--
As long as all turns are orderly, every bus lives a proper life: it is
initialized once and first, its rounds go to all devices and wait for all of
them, they end when a device leaves, and nothing follows FINISH.
-/
theorem serviceRun_lifecycle
    {inputs : Nat → Selection}
    {count : Nat}
    (orderly : ∀ step < count, ∀ server,
      serviceRun config inputs step = some server →
      OrderlyRound config server (inputs step))
    (reached : serviceRun config inputs count = some server)
    (port : String) :
    Lifecycle (config.devices port) (server.busMap port).history := by
  suffices invariant : ServerInvariant config server from
    (invariant.buses port).lifecycle
  induction count generalizing server with
  | zero =>
      obtain rfl := Option.some.inj reached
      exact init_serverInvariant config
  | succ count inductionHypothesis =>
      obtain ⟨before, earlier, success⟩ :=
        Option.bind_eq_some_iff.mp reached
      have invariant := inductionHypothesis
        (fun step less => orderly step (Nat.lt_succ_of_lt less)) earlier
      exact serverRound_invariant invariant
        (orderly count (Nat.lt_succ_self count) before earlier) success

/-! ## Concrete runs -/

theorem onePort_distinct : ["tcp:1"].Nodup :=
  List.nodup_singleton _

/-- One bus with one device. -/
def loneHost : Config where
  ports := ["tcp:1"]
  portsDistinct := onePort_distinct
  devices := fun _ => ["host"]

/-- A turn in which one connection may be accepted and one client is read. -/
def turn (accepted : Option Nat) (fd : Nat) (lines : List Line) : Selection where
  accepted := fun _ => accepted
  reads := [(fd, .lines lines)]
  readsSorted := by simp
  peekTime := fun _ => 0

/-- A client that connects, takes part in a round and leaves. -/
def politeHost : Nat → Selection
  | 0 => turn (some 3) 3 []
  | 1 => turn none 3 [.hello "host"]
  | 2 => turn none 3 [.ready]
  | _ => turn none 3 [.finish]

/-- A second connection says HELLO for the device after FINISH. -/
def lateHello : Nat → Selection
  | 0 => turn (some 3) 3 []
  | 1 => turn (some 4) 3 [.hello "host"]
  | 2 => turn none 3 [.ready]
  | 3 => turn none 3 [.finish]
  | _ => turn none 4 [.hello "host"]

/-- READY and FINISH arrive in one read. -/
def hastyFinish : Nat → Selection
  | 0 => turn (some 3) 3 []
  | 1 => turn none 3 [.hello "host"]
  | _ => turn none 3 [.ready, .finish]

theorem politeHost_lifecycle :
    ∃ server, serviceRun loneHost politeHost 4 = some server ∧
      (server.busMap "tcp:1").history =
        [.youAre "host", .ready "host", .runInit,
          .untilRound [("host", some 3)], .leaves "host",
          .finish [("host", some 3)]] ∧
      Lifecycle ["host"] (server.busMap "tcp:1").history := by
  have orderly : ∀ step < 4,
      ∀ server ∈ serviceRun loneHost politeHost step,
        OrderlyRound loneHost server (politeHost step) := by
    decide +kernel
  have evaluated :
      (serviceRun loneHost politeHost 4).map
          (fun server => (server.busMap "tcp:1").history) =
        some
          [.youAre "host", .ready "host", .runInit,
            .untilRound [("host", some 3)], .leaves "host",
            .finish [("host", some 3)]] := by
    decide +kernel
  obtain ⟨server, reached, history⟩ := Option.map_eq_some_iff.mp evaluated
  exact ⟨server, reached, history,
    serviceRun_lifecycle orderly reached "tcp:1"⟩

/-- A device is sent YOU-ARE after FINISH, and UNTIL after its own FINISH. -/
theorem lateHello_not_lifecycle :
    (∃ server, serviceRun loneHost lateHello 5 = some server ∧
      ¬ Lifecycle ["host"] (server.busMap "tcp:1").history) ∧
    ∃ server, serviceRun loneHost hastyFinish 3 = some server ∧
      ¬ Lifecycle ["host"] (server.busMap "tcp:1").history := by
  have lateHistory :
      (serviceRun loneHost lateHello 5).map
          (fun server => (server.busMap "tcp:1").history) =
        some
          [.youAre "host", .ready "host", .runInit,
            .untilRound [("host", some 3)], .leaves "host",
            .finish [("host", some 3)], .youAre "host"] := by
    decide +kernel
  have hastyHistory :
      (serviceRun loneHost hastyFinish 3).map
          (fun server => (server.busMap "tcp:1").history) =
        some
          [.youAre "host", .ready "host", .leaves "host", .runInit,
            .untilRound [("host", some 3)]] := by
    decide +kernel
  constructor
  · obtain ⟨server, reached, history⟩ :=
      Option.map_eq_some_iff.mp lateHistory
    refine ⟨server, reached, fun lifecycle => ?_⟩
    have ends := lifecycle.finishEnds
    rw [history] at ends
    revert ends
    decide
  · obtain ⟨server, reached, history⟩ :=
      Option.map_eq_some_iff.mp hastyHistory
    refine ⟨server, reached, fun lifecycle => ?_⟩
    have ends := lifecycle.leaveEnds
    rw [history] at ends
    revert ends
    decide

end Simbus.Service
