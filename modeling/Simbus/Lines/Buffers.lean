import Simbus.Lines.Until

/-!
# The buffers of the lines

No function checks the length of a line that it builds.  A READY has to fit into
the buffer of its client and into that of the server, an UNTIL into the buffer of
`bus_ready` and into that of the client it goes to.  Whether all lines of a run fit
is a matter of the widths of the bus.
-/

namespace Simbus

/-! ## Buffers -/

/-- Programs with the library, and simulators. -/
inductive ClientKind where
  | library
  | simulator
  deriving DecidableEq

/-- The buffer that a client reads an UNTIL into. -/
def ClientKind.bufferSize : ClientKind → Nat
  | .library => 4096
  | .simulator => 4097

/-- `buf` of the functions of the library that send a READY. -/
def readyBufferSize : Nat := 4096

/-- `buffer_` of `client_state_t`. -/
def inputBufferSize : Nat := 4096

/-- `buf` of `bus_ready`. -/
def untilBufferSize : Nat := 4097

/-- A line that has been built, with its newline. -/
inductive BuiltLine where
  | ready (line : Message)
  | until (receiver : ClientKind) (line : Message)

/--
A READY gets a NUL behind its newline, the newline of an UNTIL takes the place of
the NUL.  Whoever reads leaves room for a NUL.
-/
def BuiltLine.Fits : BuiltLine → Prop
  | .ready line =>
      line.length + 1 ≤ readyBufferSize ∧ line.length ≤ inputBufferSize - 1
  | .until receiver line =>
      line.length ≤ untilBufferSize ∧ line.length ≤ receiver.bufferSize - 1

/-! ## Runs -/

/-- `bus_speed` of a PCI bus. -/
inductive Pci.BusSpeed where
  | mhz33
  | mhz66

/-- `duration_ps` of `clock_phase_map33` and of `clock_phase_map66`. -/
def Pci.BusSpeed.durationPs : Pci.BusSpeed → Fin 4 → BitVec 64
  | .mhz33, phase =>
      match phase with
      | 0 => 2000
      | 1 => 13000
      | 2 => 13000
      | 3 => 2000
  | .mhz66, phase =>
      match phase with
      | 0 => 2000
      | 1 => 5500
      | 2 => 5500
      | 3 => 2000

/--
A bus with what its devices have reported, the time of its last UNTIL, and the
kinds of its clients.  Only PCI has a speed of its own.
-/
structure LineBus (n : Nat) where
  proto : ProtocolObject n
  signals : PlugSignals n
  time : SimTime
  speed : Pci.BusSpeed
  kinds : Fin n → ClientKind

/-- What happens on a bus: a library client sends its READY or another one. -/
inductive LineAction (n : Nat) (User Handle : Type) where
  | ready (dev : Fin n) (client : LibraryClient User Handle)
  | report (line : Ready n)
  | assemble
  | step (random : Nat)

namespace ProtocolObject

variable {n : Nat}

/-- What the constructors make of the options that they accept. -/
def Made : ProtocolObject n → Prop
  | .pci _ _ => True
  | .pointToPoint _ _ proto =>
      ∃ options widO widI,
        P2p.PointToPoint.make options widO widI = some proto
  | .axi4 _ _ proto =>
      ∃ options widths made, Axi4.AXI4Protocol.make options = some made ∧
        proto = made.configure widths
  | .pcieTlp _ _ proto => ∃ options, Pcie.PCIeTLP.make options = some proto

end ProtocolObject

section

variable {n : Nat}
variable {User Handle : Type}

namespace LineBus

/-- A bus before any of its devices has reported. -/
def start
    (proto : ProtocolObject n)
    (speed : Pci.BusSpeed)
    (kinds : Fin n → ClientKind) : LineBus n where
  proto := proto
  signals := fun _ => .empty
  time := .zero
  speed := speed
  kinds := kinds

/-- `time_` when the protocol has advanced it. -/
def timeAfter (bus : LineBus n) : ProtocolObject n → SimTime
  | .pci _ next => bus.time.add ⟨bus.speed.durationPs next.phase, -12⟩
  | .pointToPoint _ _ next => next.clock.time
  | .axi4 _ _ next => next.clock.time
  | .pcieTlp _ _ next => next.clock.time

/-- One action, with the lines that it builds. -/
def act (bus : LineBus n) :
    LineAction n User Handle → Option (LineBus n × List BuiltLine)
  | .ready dev client =>
      some
        ({ bus with
            signals := bus.signals.ready { dev := dev, tokens := client.tokens } },
          [.ready (client.ready bus.time)])
  | .report line => some ({ bus with signals := bus.signals.ready line }, [])
  | .assemble =>
      (bus.proto.runInit bus.signals).map fun (proto, signals) =>
        ({ bus with proto := proto, signals := signals }, [])
  | .step random =>
      (bus.proto.send random bus.signals).map fun (next, sent) =>
        let time := bus.timeAfter next
        ({ bus with proto := next, time := time },
          sent.map fun (dev, tokens) =>
            .until (bus.kinds dev) (untilLine time tokens))

/-- All lines that some actions build; a failed assertion is the end. -/
def lines : LineBus n → List (LineAction n User Handle) → List BuiltLine
  | _, [] => []
  | bus, action :: rest =>
      match bus.act action with
      | none => []
      | some (next, built) => built ++ next.lines rest

/-- All of them fit into their buffers. -/
def AllFit (bus : LineBus n) (actions : List (LineAction n User Handle)) : Prop :=
  ∀ line ∈ bus.lines actions, line.Fits

end LineBus

/-! ## Room -/

/-- There is room for the READY of a client at some time. -/
def LibraryClient.HasRoom
    (time : SimTime)
    (client : LibraryClient User Handle) : Prop :=
  7 + time.textLength + client.tokenChars ≤ lineSize

namespace LineBus

/-- What a device reads at once. -/
def room (bus : LineBus n) (dev : Fin n) : Nat :=
  (bus.kinds dev).bufferSize - 1

/-- There is room for the lines of an action. -/
def HasRoom (bus : LineBus n) : LineAction n User Handle → Prop
  | .ready _ client => client.HasRoom bus.time
  | .report _ => True
  | .assemble => True
  | .step _ => bus.proto.HasRoom bus.room bus.signals

/-- All actions have room that take place. -/
def AllHaveRoom : LineBus n → List (LineAction n User Handle) → Prop
  | _, [] => True
  | bus, action :: rest =>
      match bus.act action with
      | none => True
      | some (next, _) => bus.HasRoom action ∧ next.AllHaveRoom rest

/-- All times on the bus are of the server. -/
structure Timely (bus : LineBus n) : Prop where
  time : bus.time.OfServer
  clock : ∀ clock ∈ bus.proto.clock?, clock.time.OfServer

end LineBus

/-! ## One action -/

theorem BusClock.make_ofServer
    {options : ClockOptions}
    {clock : BusClock}
    (made : BusClock.make options = some clock) :
    clock.time.OfServer := by
  rw [BusClock.make, Option.ite_none_right_eq_some] at made
  obtain ⟨_, isMade⟩ := made
  cases isMade
  exact .zero

section

variable {bus next : LineBus n}
variable {action : LineAction n User Handle}
variable {built : List BuiltLine}

theorem LibraryClient.ready_fits_iff
    (client : LibraryClient User Handle)
    (time : SimTime) :
    (BuiltLine.ready (client.ready time)).Fits ↔ client.HasRoom time := by
  rw [BuiltLine.Fits, client.length_ready, readyBufferSize, inputBufferSize,
    HasRoom, lineSize]
  omega

theorem LineBus.lineSize_le_room (bus : LineBus n) (dev : Fin n) :
    lineSize ≤ bus.room dev := by
  rw [LineBus.room]
  cases bus.kinds dev <;> decide

/-- The room of a device is also in the buffer of the server. -/
theorem LineBus.until_fits_iff
    (bus : LineBus n)
    (dev : Fin n)
    (line : Message) :
    (BuiltLine.until (bus.kinds dev) line).Fits ↔
      line.length ≤ bus.room dev := by
  have inServer : bus.room dev ≤ untilBufferSize := by
    rw [LineBus.room]
    cases bus.kinds dev <;> decide
  exact ⟨fun fits => fits.2, fun fits => ⟨fits.trans inServer, fits⟩⟩

/-- The time of a step is that of the clock, if the protocol has one. -/
theorem LineBus.timeAfter_of_clock
    (bus : LineBus n)
    (proto : ProtocolObject n) :
    ∀ clock ∈ proto.clock?, clock.time = bus.timeAfter proto := by
  intro clock isClock
  cases proto with
  | pci _ _ =>
      cases isClock
  | pointToPoint _ _ _ =>
      cases isClock
      rfl
  | axi4 _ _ _ =>
      cases isClock
      rfl
  | pcieTlp _ _ _ =>
      cases isClock
      rfl

theorem ProtocolObject.runInit_clock
    {proto proto' : ProtocolObject n}
    {signals signals' : PlugSignals n}
    (initialized : proto.runInit signals = some (proto', signals')) :
    proto'.clock? = proto.clock? := by
  cases proto with
  | pci bus proto =>
      rw [ProtocolObject.runInit, Option.map_eq_some_iff] at initialized
      obtain ⟨_, _, isResult⟩ := initialized
      cases isResult
      rfl
  | pointToPoint _ _ _ =>
      cases initialized
      rfl
  | axi4 _ _ _ =>
      cases initialized
      rfl
  | pcieTlp _ _ _ =>
      cases initialized
      rfl

/-- The times after a step are of the server. -/
theorem LineBus.Timely.send
    {random : Nat}
    {proto : ProtocolObject n}
    {sent : List (Fin n × Tokens String)}
    (timely : bus.Timely)
    (isSent : bus.proto.send random bus.signals = some (proto, sent)) :
    (bus.timeAfter proto).OfServer ∧
      ∀ clock ∈ proto.clock?, clock.time.OfServer := by
  have clocks : ∀ clock ∈ proto.clock?, clock.time.OfServer := by
    intro clock isClock
    rw [ProtocolObject.send_clock isSent, Option.mem_def,
      Option.map_eq_some_iff] at isClock
    obtain ⟨before, isBefore, rfl⟩ := isClock
    exact (timely.clock before isBefore).add _
  refine ⟨?_, clocks⟩
  cases proto with
  | pci _ next =>
      exact timely.time.add _
  | pointToPoint _ _ next =>
      exact clocks next.clock rfl
  | axi4 _ _ next =>
      exact clocks next.clock rfl
  | pcieTlp _ _ next =>
      exact clocks next.clock rfl

/-- An action keeps the times of the bus. -/
theorem LineBus.Timely.act
    (timely : bus.Timely)
    (acted : bus.act action = some (next, built)) :
    next.Timely := by
  cases action with
  | ready dev client =>
      cases acted
      exact ⟨timely.time, timely.clock⟩
  | report line =>
      cases acted
      exact ⟨timely.time, timely.clock⟩
  | assemble =>
      rw [LineBus.act, Option.map_eq_some_iff] at acted
      obtain ⟨⟨proto, signals⟩, initialized, isResult⟩ := acted
      cases isResult
      refine ⟨timely.time, ?_⟩
      rw [ProtocolObject.runInit_clock initialized]
      exact timely.clock
  | step random =>
      rw [LineBus.act, Option.map_eq_some_iff] at acted
      obtain ⟨⟨proto, sent⟩, isSent, isResult⟩ := acted
      cases isResult
      obtain ⟨time, clock⟩ := timely.send isSent
      exact ⟨time, clock⟩

/-- The lines of an action fit exactly if there is room for them. -/
theorem LineBus.Timely.act_fits_iff
    (timely : bus.Timely)
    (acted : bus.act action = some (next, built)) :
    (∀ line ∈ built, line.Fits) ↔ bus.HasRoom action := by
  cases action with
  | ready dev client =>
      cases acted
      rw [List.forall_mem_singleton]
      exact client.ready_fits_iff bus.time
  | report line =>
      cases acted
      exact iff_of_true nofun trivial
  | assemble =>
      rw [LineBus.act, Option.map_eq_some_iff] at acted
      obtain ⟨_, _, isResult⟩ := acted
      cases isResult
      exact iff_of_true nofun trivial
  | step random =>
      rw [LineBus.act, Option.map_eq_some_iff] at acted
      obtain ⟨⟨proto, sent⟩, isSent, isResult⟩ := acted
      cases isResult
      simp only [List.forall_mem_map, bus.until_fits_iff]
      exact ProtocolObject.send_fits_iff isSent
        (bus.timeAfter_of_clock proto) (timely.send isSent).1
        bus.lineSize_le_room

/-! ## All actions -/

/-- From any state on all lines fit exactly if all actions have room. -/
theorem LineBus.Timely.all_fit_iff
    (timely : bus.Timely)
    (actions : List (LineAction n User Handle)) :
    bus.AllFit actions ↔ bus.AllHaveRoom actions := by
  induction actions generalizing bus with
  | nil =>
      exact iff_of_true nofun trivial
  | cons action rest inductionHypothesis =>
      rw [LineBus.AllFit, LineBus.lines, LineBus.AllHaveRoom]
      rcases acted : bus.act action with _ | ⟨next, built⟩
      · exact iff_of_true nofun trivial
      · simp only [List.forall_mem_append]
        exact and_congr (timely.act_fits_iff acted)
          (inductionHypothesis (timely.act acted))

/-! ## Narrow buses -/

/-- A client whose READY has room at any time. -/
def LibraryClient.Narrow (client : LibraryClient User Handle) : Prop :=
  31 + client.tokenChars ≤ lineSize

/-- So are all clients of PCI and of PCIe. -/
theorem LibraryClient.narrow_pci (pci : Pci.SimbusPci User Handle) :
    (LibraryClient.pci pci).Narrow := by
  change 31 + 174 ≤ 4095
  decide

theorem LibraryClient.narrow_pcieTlp (bus : Pcie.SimbusPcieTlp User) :
    (LibraryClient.pcieTlp bus : LibraryClient User Handle).Narrow := by
  change 31 + 206 ≤ 4095
  decide

/-- The library clients among some actions are so. -/
def NarrowClients (actions : List (LineAction n User Handle)) : Prop :=
  ∀ dev client, .ready dev client ∈ actions → client.Narrow

/--
A protocol whose UNTIL lines have room at any time.  What PCIe sends depends on
more than its configuration.
-/
def ProtocolObject.Narrow : ProtocolObject n → Prop
  | .pci _ _ => True
  | .pointToPoint _ _ _ => True
  | .axi4 _ _ proto =>
      125 + proto.widths.widWidth + proto.widths.dataWidth +
          proto.widths.ridWidth + proto.widths.irqWidth ≤ lineSize ∧
        301 + 2 * proto.widths.addrWidth + 2 * proto.widths.widWidth +
          proto.widths.dataWidth + proto.widths.dataWidth / 8 ≤ lineSize
  | .pcieTlp _ _ _ => False

theorem LibraryClient.Narrow.hasRoom
    {client : LibraryClient User Handle}
    {time : SimTime}
    (narrow : client.Narrow)
    (ofServer : time.OfServer) :
    client.HasRoom time := by
  have small := ofServer.textLength_le
  rw [Narrow] at narrow
  rw [HasRoom]
  omega

theorem ProtocolObject.Narrow.hasRoom
    {proto : ProtocolObject n}
    {room : Fin n → Nat}
    (narrow : proto.Narrow)
    (clocks : ∀ clock ∈ proto.clock?, clock.time.OfServer)
    (large : ∀ dev, lineSize ≤ room dev)
    (signals : PlugSignals n) :
    proto.HasRoom room signals := by
  cases proto with
  | pci _ _ =>
      trivial
  | pointToPoint _ _ _ =>
      trivial
  | axi4 master slave proto =>
      have small := ((clocks proto.clock rfl).add (proto.clock.clockPhaseMap
        (proto.clock.phase + 1))).textLength_le
      have masterRoom := large master
      have slaveRoom := large slave
      rw [Narrow] at narrow
      change proto.clock.advanceBusClock.time.textLength ≤ 24 at small
      rw [HasRoom]
      constructor
      · omega
      · omega
  | pcieTlp _ _ _ =>
      exact narrow.elim

/-- No step changes the widths. -/
theorem ProtocolObject.Narrow.runRun
    {random : Nat}
    {proto proto' : ProtocolObject n}
    {signals : PlugSignals n}
    (narrow : proto.Narrow)
    (ran : proto.runRun random signals = some proto') :
    proto'.Narrow := by
  cases proto with
  | pci bus proto =>
      simp only [ProtocolObject.runRun, Option.bind_eq_some_iff,
        Option.map_eq_some_iff] at ran
      obtain ⟨_, _, _, _, rfl⟩ := ran
      trivial
  | pointToPoint master slave proto =>
      rw [ProtocolObject.runRun, Option.map_eq_some_iff] at ran
      obtain ⟨_, _, rfl⟩ := ran
      trivial
  | axi4 master slave proto =>
      rw [ProtocolObject.runRun, Option.map_eq_some_iff] at ran
      obtain ⟨_, ranProto, rfl⟩ := ran
      rw [Axi4.AXI4Protocol.runRun, Option.map_eq_some_iff] at ranProto
      obtain ⟨_, _, rfl⟩ := ranProto
      exact narrow
  | pcieTlp _ _ _ =>
      exact narrow.elim

theorem ProtocolObject.Narrow.runInit
    {proto proto' : ProtocolObject n}
    {signals signals' : PlugSignals n}
    (narrow : proto.Narrow)
    (initialized : proto.runInit signals = some (proto', signals')) :
    proto'.Narrow := by
  cases proto with
  | pci bus proto =>
      rw [ProtocolObject.runInit, Option.map_eq_some_iff] at initialized
      obtain ⟨_, _, isResult⟩ := initialized
      cases isResult
      trivial
  | pointToPoint _ _ _ =>
      cases initialized
      trivial
  | axi4 _ _ _ =>
      cases initialized
      exact narrow
  | pcieTlp _ _ _ =>
      exact narrow.elim

theorem ProtocolObject.Narrow.act
    (narrow : bus.proto.Narrow)
    (acted : bus.act action = some (next, built)) :
    next.proto.Narrow := by
  cases action with
  | ready dev client =>
      cases acted
      exact narrow
  | report line =>
      cases acted
      exact narrow
  | assemble =>
      rw [LineBus.act, Option.map_eq_some_iff] at acted
      obtain ⟨_, initialized, isResult⟩ := acted
      cases isResult
      exact narrow.runInit initialized
  | step random =>
      rw [LineBus.act, Option.map_eq_some_iff] at acted
      obtain ⟨_, isSent, isResult⟩ := acted
      cases isResult
      have ran := ProtocolObject.send_runRun bus.proto random bus.signals
      rw [isSent, Option.map_some] at ran
      exact narrow.runRun ran.symm

/-- On a narrow bus with narrow clients all actions have room at any time. -/
theorem LineBus.Timely.allHaveRoom
    (timely : bus.Timely)
    (narrow : bus.proto.Narrow)
    {actions : List (LineAction n User Handle)}
    (clients : NarrowClients actions) :
    bus.AllHaveRoom actions := by
  induction actions generalizing bus with
  | nil =>
      trivial
  | cons action rest inductionHypothesis =>
      rw [LineBus.AllHaveRoom]
      rcases acted : bus.act action with _ | ⟨next, built⟩
      · trivial
      · refine ⟨?_, inductionHypothesis (timely.act acted) (narrow.act acted)
          fun dev client member =>
            clients dev client (List.mem_cons_of_mem _ member)⟩
        cases action with
        | ready dev client =>
            exact (clients dev client List.mem_cons_self).hasRoom timely.time
        | report line =>
            trivial
        | assemble =>
            trivial
        | step random =>
            exact narrow.hasRoom timely.clock bus.lineSize_le_room bus.signals

/-! ## All buses -/

/-- What a constructor makes starts at time 0. -/
theorem ProtocolObject.Made.timely
    {proto : ProtocolObject n}
    (made : proto.Made)
    (speed : Pci.BusSpeed)
    (kinds : Fin n → ClientKind) :
    (LineBus.start proto speed kinds).Timely where
  time := .zero
  clock := by
    intro clock isClock
    cases proto with
    | pci _ _ =>
        cases isClock
    | pointToPoint _ _ proto =>
        cases isClock
        obtain ⟨options, widO, widI, isMade⟩ := made
        rw [P2p.PointToPoint.make, Option.map_eq_some_iff] at isMade
        obtain ⟨_, isMade, rfl⟩ := isMade
        exact BusClock.make_ofServer isMade
    | axi4 _ _ proto =>
        cases isClock
        obtain ⟨options, widths, _, isMade, rfl⟩ := made
        rw [Axi4.AXI4Protocol.make, Option.map_eq_some_iff] at isMade
        obtain ⟨_, isMade, rfl⟩ := isMade
        exact BusClock.make_ofServer isMade
    | pcieTlp _ _ proto =>
        cases isClock
        obtain ⟨options, isMade⟩ := made
        rw [Pcie.PCIeTLP.make, Option.map_eq_some_iff] at isMade
        obtain ⟨_, isMade, rfl⟩ := isMade
        exact BusClock.make_ofServer isMade

end

end

/--
In every run of a bus of any protocol and any widths all lines fit into their
buffers exactly if all actions have room.  A client of the library has no more than
`axi4MaxId` bits in its ids and `axi4MaxIrq` interrupts.
-/
theorem lines_fit_iff
    {n : Nat}
    {User Handle : Type}
    (proto : ProtocolObject n)
    (speed : Pci.BusSpeed)
    (kinds : Fin n → ClientKind)
    (actions : List (LineAction n User Handle))
    (made : proto.Made) :
    (LineBus.start proto speed kinds).AllFit actions ↔
      (LineBus.start proto speed kinds).AllHaveRoom actions :=
  (made.timely speed kinds).all_fit_iff actions

/-- A point-to-point bus of some widths, with two library clients. -/
def pointBus (widO widI : Nat) : LineBus 2 :=
  .start
    (.pointToPoint 0 1
      { clock := .ofOptions ⟨5000, 5000, 2000, 2000⟩
        masterClockMode := .run
        widO := widO
        widI := widI })
    .mhz33 fun _ => .library

theorem pointBus_made (widO widI : Nat) : (pointBus widO widI).proto.Made :=
  ⟨⟨5000, 5000, 2000, 2000⟩, widO, widI, rfl⟩

/-- Its host and its device, as they have been connected. -/
def pointHost (widO widI : Nat) : LibraryClient Unit Unit :=
  .p2p (.connect widI widO 0)

def pointDevice (widO widI : Nat) : LibraryClient Unit Unit :=
  .p2p (.connect widI widO 1)

/-- The lines of the first step of a bus of 32 bits. -/
theorem lines_fit_iff_word :
    (pointBus 32 32).AllFit
      [.ready 0 (pointHost 32 32), .ready 1 (pointDevice 32 32), .assemble,
        .step 0] := by
  refine (lines_fit_iff (pointBus 32 32).proto .mhz33 (fun _ => .library) _
    (pointBus_made 32 32)).mpr ?_
  refine ((pointBus_made 32 32).timely .mhz33 fun _ => .library).allHaveRoom
    trivial ?_
  intro dev client member
  simp only [List.mem_cons, LineAction.ready.injEq, reduceCtorEq,
    List.not_mem_nil, or_false] at member
  rcases member with ⟨_, rfl⟩ | ⟨_, rfl⟩
  · exact (by decide : 31 + (14 + (8 + 32)) ≤ 4095)
  · exact (by decide : 31 + (8 + 32) ≤ 4095)

/-- With 5000 bits already the first READY overruns its buffer. -/
theorem wideReady_overruns :
    (pointBus 5000 5000).proto.Made ∧
      ¬ (pointBus 5000 5000).AllFit [.ready 0 (pointHost 5000 5000)] := by
  refine ⟨pointBus_made 5000 5000, fun fits => ?_⟩
  have room := ((pointHost 5000 5000).ready_fits_iff .zero).mp
    (fits _ List.mem_cons_self)
  have wide : ¬ 7 + SimTime.zero.textLength + (14 + (8 + 5000)) ≤ 4095 := by
    decide
  exact wide room

end Simbus
