import Simbus.P2p.Client
import Simbus.P2p.Protocol

/-!
# Data over a point-to-point bus

A host and a device of the library at their server.  In each step both send
their READY, the protocol runs once, and both decode their UNTIL.
-/

namespace Simbus.P2p

open FourValued Axi4

/-! ## Steps -/

/-- The protocol with what it knows of its clients, and the clients. -/
structure Link where
  proto : PointToPoint
  hostSignals : SignalMap String
  deviceSignals : SignalMap String
  host : SimbusP2p
  device : SimbusP2p

/-- What the users of both clients set before a step. -/
structure Outputs where
  clockMode : Bits
  dataO : Bits
  dataI : Bits

/-- What the server sends to a client. -/
def untilMessage (proto : PointToPoint) (tokens : Tokens String) : Message where
  keyword := "UNTIL"
  time := proto.clock.time
  tokens := tokens

namespace Link

/-- The clients as their users have set them. -/
def drive (link : Link) (outputs : Outputs) : Link :=
  { link with
    host :=
      { link.host with
        clockMode := outputs.clockMode
        dataO := outputs.dataO }
    device := { link.device with dataI := outputs.dataI } }

/-- `process_client_ready_` for both clients. -/
def report (link : Link) : Link :=
  { link with
    hostSignals := link.hostSignals.recordAll link.host.ready.tokens
    deviceSignals := link.deviceSignals.recordAll link.device.ready.tokens }

/-- `bus_ready`, and the decoders of both clients. -/
def respond (link : Link) : Option Link := do
  let (proto, toHost, toDevice) ←
    link.proto.runRun link.hostSignals link.deviceSignals
  if (untilMessage proto toHost).Fits ∧ (untilMessage proto toDevice).Fits then
    let host ← link.host.sample (untilMessage proto toHost)
    let device ← link.device.sample (untilMessage proto toDevice)
    return { link with proto := proto, host := host, device := device }
  else
    none

/-- One step; a line that does not fit into its buffer overruns it. -/
def step (link : Link) (outputs : Outputs) : Option Link :=
  let driven := link.drive outputs
  if driven.host.ready.Fits ∧ driven.device.ready.Fits then
    driven.report.respond
  else
    none

end Link

/-- The clients have the data of the other side. -/
structure Delivered (outputs : Outputs) (link : Link) : Prop where
  toDevice : ∀ idx < link.device.widthO,
    link.device.dataO idx = outputs.dataO idx
  toHost : ∀ idx < link.host.widthI,
    link.host.dataI idx = outputs.dataI idx

/-- Every step of a run has its answer and delivers the data. -/
def Carries : Link → List Outputs → Prop
  | _, [] => True
  | link, outputs :: rest =>
      ∃ next, link.step outputs = some next ∧ Delivered outputs next ∧
        Carries next rest

/-! ## Connections -/

/-- A bus whose server and clients have been told the same widths. -/
structure Connection where
  options : ClockOptions
  accepted : options.Accepted
  widthO : Nat
  widthI : Nat
  someWidth : 0 < widthI ∨ 0 < widthO
  deviceIdent : Nat
  isDevice : deviceIdent ≠ 0

/-- Server and clients after the bus has been assembled. -/
def Connection.start (connection : Connection) : Link where
  proto :=
    { clock := .ofOptions connection.options
      masterClockMode := .run
      widO := connection.widthO
      widI := connection.widthI }
  hostSignals := .empty
  deviceSignals := .empty
  host := .connect connection.widthI connection.widthO 0
  device :=
    .connect connection.widthI connection.widthO connection.deviceIdent

/-- The four lines of a step fit into their buffers. -/
structure Connection.LinesFit
    (connection : Connection)
    (step : Nat) : Prop where
  hostReady :
    (BusClock.advanced connection.options step).time.textLength + 29 +
      connection.widthO ≤ lineSize
  deviceReady :
    (BusClock.advanced connection.options step).time.textLength + 15 +
      connection.widthI ≤ lineSize
  toHost :
    (BusClock.advanced connection.options (step + 1)).time.textLength + 23 +
      connection.widthI ≤ lineSize
  toDevice :
    (BusClock.advanced connection.options (step + 1)).time.textLength + 23 +
      connection.widthO ≤ lineSize

/-- The server can trace the data in both directions. -/
structure Connection.CanTrace (connection : Connection) : Prop where
  widthO : Traced connection.widthO
  widthI : Traced connection.widthI

/-- The time after some steps is one of the server. -/
theorem advanced_ofServer (options : ClockOptions) (step : Nat) :
    (BusClock.advanced options step).time.OfServer := by
  induction step with
  | zero =>
      exact .zero
  | succ step inductionHypothesis =>
      rw [advanced_succ_time]
      exact inductionHypothesis.add _

/-- What can be traced makes lines that fit. -/
theorem Connection.CanTrace.linesFit
    {connection : Connection}
    (canTrace : connection.CanTrace)
    (step : Nat) :
    connection.LinesFit step := by
  have before :=
    (advanced_ofServer connection.options step).textLength_le
  have after :=
    (advanced_ofServer connection.options (step + 1)).textLength_le
  have widthO : connection.widthO < 1025 := canTrace.widthO
  have widthI : connection.widthI < 1025 := canTrace.widthI
  have isSize : lineSize = 4095 := rfl
  constructor <;> omega

/-- Where a link is after some steps. -/
structure Running
    (connection : Connection)
    (step : Nat)
    (link : Link) : Prop where
  clock : link.proto.clock = BusClock.advanced connection.options step
  widO : link.proto.widO = connection.widthO
  widI : link.proto.widI = connection.widthI
  hostIdent : link.host.ident = 0
  hostTime :
    link.host.busTime = (BusClock.advanced connection.options step).time
  hostWidthO : link.host.widthO = connection.widthO
  hostWidthI : link.host.widthI = connection.widthI
  deviceIdent : link.device.ident ≠ 0
  deviceTime :
    link.device.busTime = (BusClock.advanced connection.options step).time
  deviceWidthO : link.device.widthO = connection.widthO
  deviceWidthI : link.device.widthI = connection.widthI

theorem Connection.running (connection : Connection) :
    Running connection 0 connection.start where
  clock := rfl
  widO := rfl
  widI := rfl
  hostIdent := rfl
  hostTime := rfl
  hostWidthO := rfl
  hostWidthI := rfl
  deviceIdent := connection.isDevice
  deviceTime := rfl
  deviceWidthO := rfl
  deviceWidthI := rfl

/-! ## Copies -/

/-- A vector of the right width is copied as it is. -/
theorem copyData_eq
    {width : Nat}
    {reported : Vector4}
    (isWidth : reported.length = width) :
    PointToPoint.copyData width reported = reported := by
  apply List.ext_getElem
  · rw [PointToPoint.length_copyData, isWidth]
  · intro idx _ inside
    simp only [PointToPoint.copyData, List.getElem_map, List.getElem_range]
    exact (List.getElem_eq_getD Logic4.z).symm

/-- What the one client writes is what the other one reads. -/
theorem vectorText_copyData (width : Nat) (bits : Bits) :
    vectorText (PointToPoint.copyData width (encode width bits).reverse) =
      encode width bits := by
  rw [copyData_eq (by rw [List.length_reverse, length_encode]), vectorText,
    List.reverse_reverse]

@[simp]
theorem length_copyData (width : Nat) (reported : Vector4) :
    (vectorText (PointToPoint.copyData width reported)).length = width := by
  rw [vectorText, List.length_reverse, PointToPoint.length_copyData]

/-! ## One step -/

section

variable {connection : Connection}
variable {step : Nat}
variable {link : Link}

theorem sample_host
    (bus : SimbusP2p)
    (proto : PointToPoint)
    (clock : Logic4)
    (text : Text) :
    bus.sample (untilMessage proto [("CLOCK", [clock]), ("DATA_I", text)]) =
      if 0 < text.length then
        some
          { bus with
            busTime := proto.clock.time
            clock := clock
            dataI := decodeData bus.widthI text bus.dataI }
      else
        none := by
  simp only [SimbusP2p.sample, untilMessage, List.foldlM_cons,
    List.foldlM_nil, SimbusP2p.receive, Option.bind_eq_bind,
    Option.bind_some]
  split <;> rfl

theorem sample_device
    (bus : SimbusP2p)
    (proto : PointToPoint)
    (clock : Logic4)
    (text : Text) :
    bus.sample (untilMessage proto [("CLOCK", [clock]), ("DATA_O", text)]) =
      if 0 < text.length then
        some
          { bus with
            busTime := proto.clock.time
            clock := clock
            dataO := decodeData bus.widthO text bus.dataO }
      else
        none := by
  simp only [SimbusP2p.sample, untilMessage, List.foldlM_cons,
    List.foldlM_nil, SimbusP2p.receive, Option.bind_eq_bind,
    Option.bind_some]
  split <;> rfl

/-- The characters of an UNTIL. -/
theorem length_untilMessage
    {proto : PointToPoint}
    {name : String}
    {clock : Logic4}
    {text : Text}
    (isName : name.length = 6) :
    (untilMessage proto [("CLOCK", [clock]), (name, text)]).length =
      proto.clock.time.textLength + 23 + text.length := by
  have keyword : "UNTIL".length = 5 := by decide
  have clockName : "CLOCK".length = 5 := by decide
  simp only [Message.length, untilMessage, tokenLength, List.map_cons,
    List.map_nil, List.sum_cons, List.sum_nil, keyword, clockName, isName,
    List.length_singleton]
  omega

/-- The host sends both of its signals, if it has data. -/
theorem ready_host
    {bus : SimbusP2p}
    (isHost : bus.ident = 0)
    (some : 0 < bus.widthO) :
    bus.ready.tokens =
      [("CLOCK_MODE", encode 2 bus.clockMode),
        ("DATA_O", encode bus.widthO bus.dataO)] := by
  simp [SimbusP2p.ready, isHost, some]

theorem ready_device
    {bus : SimbusP2p}
    (isDevice : bus.ident ≠ 0)
    (some : 0 < bus.widthI) :
    bus.ready.tokens = [("DATA_I", encode bus.widthI bus.dataI)] := by
  simp [SimbusP2p.ready, isDevice, some]

/-- The characters of the READY of a host. -/
theorem length_ready_host
    {bus : SimbusP2p}
    (isHost : bus.ident = 0)
    (some : 0 < bus.widthO) :
    bus.ready.length = bus.busTime.textLength + 29 + bus.widthO := by
  have keyword : "READY".length = 5 := by decide
  have modeName : "CLOCK_MODE".length = 10 := by decide
  have dataName : "DATA_O".length = 6 := by decide
  have isKeyword : bus.ready.keyword = "READY" := rfl
  have isTime : bus.ready.time = bus.busTime := rfl
  simp only [Message.length, ready_host isHost some, isKeyword, isTime,
    tokenLength, List.map_cons, List.map_nil, List.sum_cons, List.sum_nil,
    keyword, modeName, dataName, length_encode]
  omega

theorem length_ready_device
    {bus : SimbusP2p}
    (isDevice : bus.ident ≠ 0)
    (some : 0 < bus.widthI) :
    bus.ready.length = bus.busTime.textLength + 15 + bus.widthI := by
  have keyword : "READY".length = 5 := by decide
  have dataName : "DATA_I".length = 6 := by decide
  have isKeyword : bus.ready.keyword = "READY" := rfl
  have isTime : bus.ready.time = bus.busTime := rfl
  simp only [Message.length, ready_device isDevice some, isKeyword, isTime,
    tokenLength, List.map_cons, List.map_nil, List.sum_cons, List.sum_nil,
    keyword, dataName, length_encode]
  omega

/-- The server answers only if both clients get some data that it can trace. -/
theorem respond_eq (link : Link) :
    link.respond =
      let clock := link.proto.clock.advanceBusClock
      if link.proto.CanTrace ∧ (clock.time.textLength + 23 + link.proto.widI ≤ lineSize ∧
          clock.time.textLength + 23 + link.proto.widO ≤ lineSize) ∧
          0 < link.proto.widI ∧ 0 < link.proto.widO then
        some
          { link with
            proto :=
              { link.proto with
                clock := clock
                masterClockMode :=
                  PointToPoint.modeOf (link.hostSignals "CLOCK_MODE") }
            host :=
              { link.host with
                busTime := clock.time
                clock := clock.busClk
                dataI := decodeData link.host.widthI
                  (vectorText (PointToPoint.copyData link.proto.widI
                    (link.deviceSignals "DATA_I"))) link.host.dataI }
            device :=
              { link.device with
                busTime := clock.time
                clock := PointToPoint.slaveClock link.proto.masterClockMode
                  clock.busClk
                dataO := decodeData link.device.widthO
                  (vectorText (PointToPoint.copyData link.proto.widO
                    (link.hostSignals "DATA_O"))) link.device.dataO } }
      else
        none := by
  have isHost : "DATA_I".length = 6 := by decide
  have isDevice : "DATA_O".length = 6 := by decide
  by_cases canTrace : link.proto.CanTrace
  · simp only [Link.respond, PointToPoint.runRun_of_canTrace canTrace,
      Option.bind_eq_bind, Option.bind_some, Message.Fits,
      length_untilMessage isHost, length_untilMessage isDevice,
      length_copyData, sample_host, sample_device]
    split
    · rename_i fits
      by_cases someI : 0 < link.proto.widI
      · by_cases someO : 0 < link.proto.widO
        · rw [if_pos someI, if_pos someO,
            if_pos ⟨canTrace, fits, someI, someO⟩]
          rfl
        · rw [if_pos someI, if_neg someO, if_neg fun all => someO all.2.2.2]
          rfl
      · simp [someI]
    · rename_i wide
      rw [if_neg fun all => wide all.2.1]
  · rw [Link.respond, PointToPoint.runRun_of_not_canTrace canTrace,
      if_neg fun all => canTrace all.1]
    rfl

theorem Running.canTrace_iff (running : Running connection step link) :
    link.proto.CanTrace ↔ connection.CanTrace := by
  constructor
  · rintro ⟨widO, widI⟩
    exact ⟨running.widO ▸ widO, running.widI ▸ widI⟩
  · rintro ⟨widthO, widthI⟩
    exact ⟨running.widO ▸ widthO, running.widI ▸ widthI⟩

/-- The lines of both clients fit. -/
theorem Running.ready_fits
    (running : Running connection step link)
    (outputs : Outputs)
    (someI : 0 < connection.widthI)
    (someO : 0 < connection.widthO) :
    ((link.drive outputs).host.ready.Fits ∧
        (link.drive outputs).device.ready.Fits) ↔
      (BusClock.advanced connection.options step).time.textLength + 29 +
          connection.widthO ≤ lineSize ∧
        (BusClock.advanced connection.options step).time.textLength + 15 +
          connection.widthI ≤ lineSize := by
  have hostSome : 0 < (link.drive outputs).host.widthO :=
    running.hostWidthO ▸ someO
  have deviceSome : 0 < (link.drive outputs).device.widthI :=
    running.deviceWidthI ▸ someI
  have hostLength := length_ready_host
    (show (link.drive outputs).host.ident = 0 from running.hostIdent) hostSome
  have deviceLength := length_ready_device
    (show (link.drive outputs).device.ident ≠ 0 from running.deviceIdent)
    deviceSome
  rw [Message.Fits, Message.Fits, hostLength, deviceLength]
  change link.host.busTime.textLength + 29 + link.host.widthO ≤ lineSize ∧
    link.device.busTime.textLength + 15 + link.device.widthI ≤ lineSize ↔ _
  rw [running.hostTime, running.deviceTime, running.hostWidthO,
    running.deviceWidthI]

/-- The answer can be traced and fits, and there is data. -/
theorem Running.respond_isSome_iff
    (running : Running connection step link)
    (outputs : Outputs) :
    (link.drive outputs).report.respond.isSome ↔
      connection.CanTrace ∧
        ((BusClock.advanced connection.options (step + 1)).time.textLength +
            23 + connection.widthI ≤ lineSize ∧
          (BusClock.advanced connection.options (step + 1)).time.textLength +
            23 + connection.widthO ≤ lineSize) ∧
        0 < connection.widthI ∧ 0 < connection.widthO := by
  rw [respond_eq]
  change (if link.proto.CanTrace ∧
      (link.proto.clock.advanceBusClock.time.textLength + 23 +
          link.proto.widI ≤ lineSize ∧
        link.proto.clock.advanceBusClock.time.textLength + 23 +
          link.proto.widO ≤ lineSize) ∧
      0 < link.proto.widI ∧ 0 < link.proto.widO then some _
    else none).isSome ↔ _
  rw [← running.canTrace_iff, running.clock, running.widI, running.widO]
  split
  · rename_i holds
    exact iff_of_true rfl holds
  · rename_i fails
    exact iff_of_false nofun fails

/-- A step has an answer if there is data that can be traced. -/
theorem Running.step_isSome_iff
    (running : Running connection step link)
    (outputs : Outputs) :
    (link.step outputs).isSome ↔
      (0 < connection.widthI ∧ 0 < connection.widthO) ∧
        connection.CanTrace := by
  have responds := running.respond_isSome_iff outputs
  simp only [Link.step]
  constructor
  · intro isSome
    split at isSome
    · obtain ⟨canTrace, _, someI, someO⟩ := responds.mp isSome
      exact ⟨⟨someI, someO⟩, canTrace⟩
    · cases isSome
  · rintro ⟨⟨someI, someO⟩, canTrace⟩
    have fits := canTrace.linesFit step
    rw [if_pos ((running.ready_fits outputs someI someO).mpr
      ⟨fits.hostReady, fits.deviceReady⟩)]
    exact responds.mpr ⟨canTrace, ⟨fits.toHost, fits.toDevice⟩, someI, someO⟩

/-- What the server knows of the data of both clients after their READY. -/
theorem Running.reported
    (running : Running connection step link)
    (outputs : Outputs)
    (someI : 0 < connection.widthI)
    (someO : 0 < connection.widthO) :
    (link.drive outputs).report.hostSignals "DATA_O" =
        (encode connection.widthO outputs.dataO).reverse ∧
      (link.drive outputs).report.deviceSignals "DATA_I" =
        (encode connection.widthI outputs.dataI).reverse := by
  have hostSome : 0 < (link.drive outputs).host.widthO :=
    running.hostWidthO ▸ someO
  have deviceSome : 0 < (link.drive outputs).device.widthI :=
    running.deviceWidthI ▸ someI
  have hostIdent : (link.drive outputs).host.ident = 0 := running.hostIdent
  have deviceIdent : (link.drive outputs).device.ident ≠ 0 :=
    running.deviceIdent
  simp only [Link.report, ready_host hostIdent hostSome,
    ready_device deviceIdent deviceSome, SignalMap.recordAll,
    List.foldl_cons, List.foldl_nil, SignalMap.record, Function.update_self]
  change (encode link.host.widthO _).reverse = _ ∧
    (encode link.device.widthI _).reverse = _
  rw [running.hostWidthO, running.deviceWidthI]
  exact ⟨rfl, rfl⟩

/-- The answer of a step delivers the data. -/
theorem Running.stepped
    (running : Running connection step link)
    {outputs : Outputs}
    {next : Link}
    (isNext : link.step outputs = some next) :
    Running connection (step + 1) next ∧ Delivered outputs next := by
  have isSome : (link.step outputs).isSome := Option.isSome_of_eq_some isNext
  obtain ⟨⟨someI, someO⟩, _⟩ := (running.step_isSome_iff outputs).mp isSome
  obtain ⟨hostData, deviceData⟩ := running.reported outputs someI someO
  simp only [Link.step, Option.ite_none_right_eq_some] at isNext
  obtain ⟨_, isNext⟩ := isNext
  simp only [respond_eq, Option.ite_none_right_eq_some, Option.some.injEq,
    hostData, deviceData] at isNext
  obtain ⟨_, rfl⟩ := isNext
  have clock : link.proto.clock.advanceBusClock =
      BusClock.advanced connection.options (step + 1) := by
    rw [running.clock]
    rfl
  constructor
  · exact
      { clock := clock
        widO := running.widO
        widI := running.widI
        hostIdent := running.hostIdent
        hostTime := congrArg BusClock.time clock
        hostWidthO := running.hostWidthO
        hostWidthI := running.hostWidthI
        deviceIdent := running.deviceIdent
        deviceTime := congrArg BusClock.time clock
        deviceWidthO := running.deviceWidthO
        deviceWidthI := running.deviceWidthI }
  · constructor
    · intro idx bounded
      change idx < link.device.widthO at bounded
      change decodeData link.device.widthO
        (vectorText (PointToPoint.copyData link.proto.widO
          (encode connection.widthO outputs.dataO).reverse)) _ idx = _
      rw [running.widO, vectorText_copyData, ← running.deviceWidthO,
        decodeData_encode, if_pos bounded]
    · intro idx bounded
      change idx < link.host.widthI at bounded
      change decodeData link.host.widthI
        (vectorText (PointToPoint.copyData link.proto.widI
          (encode connection.widthI outputs.dataI).reverse)) _ idx = _
      rw [running.widI, vectorText_copyData, ← running.hostWidthI,
        decodeData_encode, if_pos bounded]

/-! ## Runs -/

/-- From any step on every step needs the same of the widths. -/
theorem Running.carries
    (running : Running connection step link)
    (someData : 0 < connection.widthI ∧ 0 < connection.widthO)
    (canTrace : connection.CanTrace)
    (run : List Outputs) :
    Carries link run := by
  induction run generalizing step link with
  | nil =>
      trivial
  | cons outputs rest inductionHypothesis =>
      have isSome := (running.step_isSome_iff outputs).mpr ⟨someData, canTrace⟩
      obtain ⟨next, isNext⟩ := Option.isSome_iff_exists.mp isSome
      obtain ⟨runningNext, delivered⟩ := running.stepped isNext
      exact ⟨next, isNext, delivered, inductionHypothesis runningNext⟩

/-- The first step of a run that delivers its data has an answer. -/
theorem Running.of_carries
    (running : Running connection step link)
    {outputs : Outputs}
    {rest : List Outputs}
    (carries : Carries link (outputs :: rest)) :
    (0 < connection.widthI ∧ 0 < connection.widthO) ∧
      connection.CanTrace := by
  obtain ⟨next, isNext, _⟩ := carries
  exact (running.step_isSome_iff outputs).mp
    (Option.isSome_of_eq_some isNext)

end

/--
A run delivers all data in both directions exactly if there is data in both
directions and the server can trace it; then all lines fit into their buffers.
-/
theorem carries_iff
    (connection : Connection)
    (run : List Outputs)
    (steps : run ≠ []) :
    Carries connection.start run ↔
      (0 < connection.widthI ∧ 0 < connection.widthO) ∧
        connection.CanTrace := by
  constructor
  · intro carries
    obtain ⟨outputs, rest, rfl⟩ := List.exists_cons_of_ne_nil steps
    exact connection.running.of_carries carries
  · rintro ⟨someData, canTrace⟩
    exact connection.running.carries someData canTrace run

/-- The options of the buses below. -/
theorem evenOptions_accepted :
    ClockOptions.Accepted ⟨5000, 5000, 2000, 2000⟩ := by
  decide

theorem one_isDevice : (1 : Nat) ≠ 0 :=
  one_ne_zero

/-- A bus with some data in either direction. -/
def busOfWidths
    (widthO widthI : Nat)
    (someWidth : 0 < widthI ∨ 0 < widthO) : Connection where
  options := ⟨5000, 5000, 2000, 2000⟩
  accepted := evenOptions_accepted
  widthO := widthO
  widthI := widthI
  someWidth := someWidth
  deviceIdent := 1
  isDevice := one_isDevice

/-- A word from the host and some zeros from the device. -/
def someOutputs : Outputs where
  clockMode := fun _ => .zero
  dataO := bitsOf (0x12345678 : BitVec 32)
  dataI := fun _ => .zero

/-- Two steps of a bus of 32 and 100 bits. -/
theorem carries_iff_wide :
    Carries (busOfWidths 32 100 (.inl (by decide))).start
      [someOutputs, someOutputs] := by
  refine (carries_iff (busOfWidths 32 100 (.inl (by decide)))
    [someOutputs, someOutputs] (List.cons_ne_nil _ _)).mpr ?_
  have widths : Traced 32 ∧ Traced 100 := by decide
  exact ⟨⟨by decide, by decide⟩, widths.1, widths.2⟩

/-- Without data from the device the host fails on the first UNTIL. -/
theorem noInput_not_carried :
    ¬ Carries (busOfWidths 32 0 (.inr (by decide))).start [someOutputs] := by
  intro carries
  have needs :=
    (busOfWidths 32 0 (.inr (by decide))).running.of_carries carries
  exact Nat.lt_irrefl 0 needs.1.1

end Simbus.P2p
