import Simbus.Axi4.ReadAccess
import Simbus.Clocked.Guarantee

/-!
# What the bus sees of a master

An observer follows what a master sends and what it is answered.  It knows the
rising edges of the clock, what the channels transfer there, and what the master
still has to keep on the bus.
-/

namespace Simbus.Axi4

open FourValued Clocked

section

variable {User : Type}

/-! ## The observer -/

/-- What an observer has seen. -/
structure Observed (User : Type) where
  /-- The clock has been low since the last edge. -/
  armed : Bool
  addresses : List AddressChannel
  words : List (Bits × Bits)
  responses : List Bits
  readAddresses : List AddressChannel
  /-- The master when it has sampled its inputs at the edges of the R channel. -/
  reads : List (SimbusAxi4 User)
  keptAddress : Option AddressChannel
  keptWord : Option (Bits × Bits)
  keptReadAddress : Option AddressChannel

/-- What a channel transfers. -/
def transfers
    {Payload : Type}
    (edge : Bool)
    (valid ready : Logic4)
    (payload : Payload) : List Payload :=
  if edge = true ∧ valid = .one ∧ ready = .one then [payload] else []

/-- What a channel has to keep: VALID and the payload until READY is 1 at an edge. -/
def keeps
    {Payload : Type}
    (edge : Bool)
    (valid ready : Logic4)
    (payload : Payload) : Option Payload :=
  if valid = .one ∧ ¬ (edge = true ∧ ready = .one) then some payload else none

namespace Observed

/-- Nothing has been seen, and nothing has to be kept. -/
def start (bus : SimbusAxi4 User) : Observed User where
  armed := bus.aclk = .zero
  addresses := []
  words := []
  responses := []
  readAddresses := []
  reads := []
  keptAddress := none
  keptWord := none
  keptReadAddress := none

/-- An exchange, with what the master has sent. -/
def after
    (seen : Observed User)
    (sent : SimbusAxi4 User) : MasterReply → Observed User
  | .finish =>
      { seen with
        keptAddress := keeps false sent.aw.valid .zero sent.aw
        keptWord := keeps false sent.wvalid .zero (sent.wdata, sent.wstrb)
        keptReadAddress := keeps false sent.ar.valid .zero sent.ar }
  | .until aclk text =>
      let edge : Bool := seen.armed && aclk = .one
      let ready (signal : SlaveSignal) : Logic4 := decodeBit (text signal)
      { armed := decide (aclk = .zero) || (seen.armed && decide (aclk ≠ .one))
        addresses := seen.addresses ++
          transfers edge sent.aw.valid (ready .awready) sent.aw
        words := seen.words ++
          transfers edge sent.wvalid (ready .wready) (sent.wdata, sent.wstrb)
        responses := seen.responses ++
          transfers edge (ready .bvalid) sent.bready
            (decode (text .bresp) sent.bresp)
        readAddresses := seen.readAddresses ++
          transfers edge sent.ar.valid (ready .arready) sent.ar
        reads := seen.reads ++
          transfers edge (ready .rvalid) sent.rready (sent.sampleMaster aclk text)
        keptAddress := keeps edge sent.aw.valid (ready .awready) sent.aw
        keptWord :=
          keeps edge sent.wvalid (ready .wready) (sent.wdata, sent.wstrb)
        keptReadAddress := keeps edge sent.ar.valid (ready .arready) sent.ar }

/-- The master keeps what it has to. -/
structure Allows (seen : Observed User) (bus : SimbusAxi4 User) : Prop where
  address : ∀ channel ∈ seen.keptAddress, bus.aw = channel
  word : ∀ word ∈ seen.keptWord,
    bus.wvalid = .one ∧ (bus.wdata, bus.wstrb) = word
  readAddress : ∀ channel ∈ seen.keptReadAddress, bus.ar = channel

end Observed

/-- An observer that checks what it sees. -/
def observer
    (check : Observed User → SimbusAxi4 User → Prop) :
    Monitor (SimbusAxi4 User) MasterReply where
  Phase := Observed User
  check := check
  advance := fun seen sent reply next => next = seen.after sent reply

/-- Nothing has been transferred. -/
structure SameTransfers (seen seen' : Observed User) : Prop where
  addresses : seen'.addresses = seen.addresses
  words : seen'.words = seen.words
  responses : seen'.responses = seen.responses
  readAddresses : seen'.readAddresses = seen.readAddresses
  reads : seen'.reads = seen.reads

theorem SameTransfers.refl (seen : Observed User) : SameTransfers seen seen :=
  ⟨rfl, rfl, rfl, rfl, rfl⟩

theorem SameTransfers.trans
    {seen seen' seen'' : Observed User}
    (first : SameTransfers seen seen')
    (second : SameTransfers seen' seen'') :
    SameTransfers seen seen'' :=
  ⟨second.addresses.trans first.addresses, second.words.trans first.words,
    second.responses.trans first.responses,
    second.readAddresses.trans first.readAddresses,
    second.reads.trans first.reads⟩

/-- What the master sends on its channels has not changed. -/
structure SameOutputs (bus bus' : SimbusAxi4 User) : Prop where
  widths : bus'.widths = bus.widths
  aw : bus'.aw = bus.aw
  wvalid : bus'.wvalid = bus.wvalid
  wdata : bus'.wdata = bus.wdata
  wstrb : bus'.wstrb = bus.wstrb
  bready : bus'.bready = bus.bready
  ar : bus'.ar = bus.ar
  rready : bus'.rready = bus.rready

theorem SameOutputs.refl (bus : SimbusAxi4 User) : SameOutputs bus bus :=
  ⟨rfl, rfl, rfl, rfl, rfl, rfl, rfl, rfl⟩

theorem SameOutputs.trans
    {bus bus' bus'' : SimbusAxi4 User}
    (first : SameOutputs bus bus')
    (second : SameOutputs bus' bus'') :
    SameOutputs bus bus'' :=
  ⟨second.widths.trans first.widths, second.aw.trans first.aw,
    second.wvalid.trans first.wvalid, second.wdata.trans first.wdata,
    second.wstrb.trans first.wstrb, second.bready.trans first.bready,
    second.ar.trans first.ar, second.rready.trans first.rready⟩

theorem sampleMaster_sameOutputs
    (bus : SimbusAxi4 User)
    (aclk : Logic4)
    {text : SlaveSignal → Text}
    (lengths : SimbusAxi4.HasLengths
      (SimbusAxi4.slaveLength bus.widths) text) :
    SameOutputs bus (bus.sampleMaster aclk text) := by
  rw [SimbusAxi4.sampleMaster_eq bus aclk text lengths]
  exact ⟨rfl, rfl, rfl, rfl, rfl, rfl, rfl, rfl⟩

theorem sampleMaster_aclk
    (bus : SimbusAxi4 User)
    (aclk : Logic4)
    {text : SlaveSignal → Text}
    (lengths : SimbusAxi4.HasLengths
      (SimbusAxi4.slaveLength bus.widths) text) :
    (bus.sampleMaster aclk text).aclk = aclk := by
  rw [SimbusAxi4.sampleMaster_eq bus aclk text lengths]

theorem mem_keeps_iff
    {Payload : Type}
    {edge : Bool}
    {valid ready : Logic4}
    {payload kept : Payload} :
    kept ∈ keeps edge valid ready payload ↔
      (valid = .one ∧ ¬ (edge = true ∧ ready = .one)) ∧ payload = kept := by
  rw [keeps, Option.mem_def, Option.ite_none_right_eq_some, Option.some.injEq]

/-- A master that does not change its outputs keeps what it has to. -/
theorem Observed.after_allows
    {bus : SimbusAxi4 User}
    (seen : Observed User)
    (sent : SimbusAxi4 User)
    (reply : MasterReply)
    (same : SameOutputs sent bus) :
    (seen.after sent reply).Allows bus := by
  cases reply with
  | finish =>
      refine ⟨fun channel kept => ?_, fun word kept => ?_,
        fun channel kept => ?_⟩
      · exact same.aw.trans (mem_keeps_iff.mp kept).2
      · obtain ⟨⟨valid, _⟩, rfl⟩ := mem_keeps_iff.mp kept
        rw [same.wvalid, same.wdata, same.wstrb]
        exact ⟨valid, rfl⟩
      · exact same.ar.trans (mem_keeps_iff.mp kept).2
  | «until» aclk text =>
      refine ⟨fun channel kept => ?_, fun word kept => ?_,
        fun channel kept => ?_⟩
      · exact same.aw.trans (mem_keeps_iff.mp kept).2
      · obtain ⟨⟨valid, _⟩, rfl⟩ := mem_keeps_iff.mp kept
        rw [same.wvalid, same.wdata, same.wstrb]
        exact ⟨valid, rfl⟩
      · exact same.ar.trans (mem_keeps_iff.mp kept).2

/-- Without an edge nothing is transferred. -/
theorem Observed.after_sameTransfers
    (seen : Observed User)
    (sent : SimbusAxi4 User)
    {aclk : Logic4}
    (noEdge : seen.armed = true → aclk ≠ .one)
    (text : SlaveSignal → Text) :
    SameTransfers seen (seen.after sent (.until aclk text)) := by
  have edge : (seen.armed && decide (aclk = .one)) = false := by
    rw [Bool.and_eq_false_imp]
    intro armed
    exact decide_eq_false (noEdge armed)
  constructor <;>
    · simp only [Observed.after, edge, transfers]
      exact List.append_nil _

/-- A master on its way to the next edge. -/
structure Awaits
    (seen₀ : Observed User)
    (bus₀ : SimbusAxi4 User)
    (seen : Observed User)
    (bus : SimbusAxi4 User) : Prop where
  transfers : SameTransfers seen₀ seen
  outputs : SameOutputs bus₀ bus
  allows : seen.Allows bus

/-- A master at an edge, with the text of the UNTIL that brought it. -/
structure AtEdge
    (seen₀ : Observed User)
    (bus₀ : SimbusAxi4 User)
    (seen : Observed User)
    (bus : SimbusAxi4 User) : Prop where
  reached : ∃ before sent text,
    Awaits seen₀ bus₀ before sent ∧ before.armed = true ∧
      SimbusAxi4.HasLengths (SimbusAxi4.slaveLength sent.widths) text ∧
      bus = sent.sampleMaster .one text ∧
      seen = before.after sent (.until .one text)

variable {seen₀ : Observed User}
variable {bus₀ : SimbusAxi4 User}

/-- An exchange, after which only the inputs of the master are new. -/
theorem readyCommand_meets
    {check holds : Observed User → SimbusAxi4 User → Prop}
    {post : Post (observer check) Int}
    (allows : ∀ seen bus, holds seen bus → check seen bus)
    (finished : ∀ seen bus, holds seen bus →
      post simbusAxi4Finished (seen.after bus .finish) bus)
    (answered : ∀ seen bus aclk text, holds seen bus →
      SimbusAxi4.HasLengths (SimbusAxi4.slaveLength bus.widths) text →
      post 0 (seen.after bus (.until aclk text)) (bus.sampleMaster aclk text)) :
    Triple (observer check) holds axi4ReadyCommand post := by
  intro seen bus before
  rw [start_axi4ReadyCommand]
  refine meets_await.mpr ⟨allows seen bus before, fun reply later advances => ?_⟩
  obtain rfl : later = seen.after bus reply := advances
  cases reply with
  | finish =>
      exact meets_finish.mpr (finished seen bus before)
  | «until» aclk text =>
      simp only
      split
      · rename_i lengths
        exact meets_finish.mpr (answered seen bus aclk text before lengths)
      · exact meets_fail

theorem Awaits.later
    {seen : Observed User}
    {bus : SimbusAxi4 User}
    (awaits : Awaits seen₀ bus₀ seen bus)
    {aclk : Logic4}
    (noEdge : seen.armed = true → aclk ≠ .one)
    {text : SlaveSignal → Text}
    (lengths : SimbusAxi4.HasLengths
      (SimbusAxi4.slaveLength bus.widths) text) :
    Awaits seen₀ bus₀ (seen.after bus (.until aclk text))
      (bus.sampleMaster aclk text) where
  transfers := awaits.transfers.trans (seen.after_sameTransfers bus noEdge text)
  outputs := awaits.outputs.trans (sampleMaster_sameOutputs bus aclk lengths)
  allows := seen.after_allows bus _ (sampleMaster_sameOutputs bus aclk lengths)

theorem Awaits.finish
    {seen : Observed User}
    {bus : SimbusAxi4 User}
    (awaits : Awaits seen₀ bus₀ seen bus) :
    Awaits seen₀ bus₀ (seen.after bus .finish) bus where
  transfers := awaits.transfers.trans ⟨rfl, rfl, rfl, rfl, rfl⟩
  outputs := awaits.outputs
  allows := seen.after_allows bus _ (.refl bus)

theorem endWriteBeats_aw (bus : SimbusAxi4 User) :
    bus.endWriteBeats.aw =
      if bus.aw.valid = .one ∧ bus.awready = .one then .unused else bus.aw := by
  unfold SimbusAxi4.endWriteBeats
  simp only
  split <;> split <;> rfl

theorem endWriteBeats_word (bus : SimbusAxi4 User) :
    (bus.endWriteBeats.wvalid,
        bus.endWriteBeats.wdata, bus.endWriteBeats.wstrb) =
      if bus.wvalid = .one ∧ bus.wready = .one then
        (.zero, (fun _ => .x), fun _ => .x)
      else
        (bus.wvalid, bus.wdata, bus.wstrb) := by
  unfold SimbusAxi4.endWriteBeats
  simp only
  split <;> split <;> rfl

theorem endWriteBeats_frame (bus : SimbusAxi4 User) :
    bus.endWriteBeats.widths = bus.widths ∧
      bus.endWriteBeats.aclk = bus.aclk ∧ bus.endWriteBeats.ar = bus.ar ∧
      bus.endWriteBeats.bready = bus.bready ∧
      bus.endWriteBeats.bvalid = bus.bvalid ∧
      bus.endWriteBeats.bresp = bus.bresp := by
  unfold SimbusAxi4.endWriteBeats
  simp only
  split <;> split <;> exact ⟨rfl, rfl, rfl, rfl, rfl, rfl⟩

/-! ## Replies -/

section Replies

variable {Result : Type}
variable {check : Observed User → SimbusAxi4 User → Prop}
variable {post : Post (observer check) Result}
variable {next : Unit → SimbusAxi4 User →
  Behavior (SimbusAxi4 User) MasterReply Result}
variable {seen : Observed User}
variable {bus : SimbusAxi4 User}

/-- A level that has not been reached is waited for. -/
theorem awaitLevel_reply
    {level aclk : Logic4}
    {text : SlaveSignal → Text}
    (meets : Meets (observer check) post seen
      (((awaitLevel level).start bus).bind next))
    (waits : bus.aclk ≠ level)
    (lengths : SimbusAxi4.HasLengths
      (SimbusAxi4.slaveLength bus.widths) text) :
    Meets (observer check) post (seen.after bus (.until aclk text))
      (((awaitLevel level).start (bus.sampleMaster aclk text)).bind next) := by
  rw [awaitLevel_waits waits, Behavior.await_bind] at meets
  have later := (meets_await.mp meets).2 (.until aclk text) _ rfl
  simp only [lengths, if_true] at later
  exact later

/-- An edge at which the slave drives what it likes. -/
theorem nextPosedge_reply
    {text : SlaveSignal → Text}
    (armed : seen.armed = decide (bus.aclk = .zero))
    (lengths : SimbusAxi4.HasLengths
      (SimbusAxi4.slaveLength bus.widths) text)
    (meets : Meets (observer check) post seen
      ((axi4NextPosedge.start bus).bind next)) :
    ∃ before : Observed User, ∃ sent, SameOutputs bus sent ∧
      before.armed = true ∧
      Meets (observer check) post (before.after sent (.until .one text))
        (next () (sent.sampleMaster .one text)) := by
  rw [axi4NextPosedge, Program.start_bind, Behavior.bind_assoc] at meets
  have low : ∃ before : Observed User, ∃ sent, SameOutputs bus sent ∧
      before.armed = true ∧ sent.aclk = .zero ∧
      Meets (observer check) post before
        (((awaitLevel .one).start sent).bind next) := by
    by_cases isLow : bus.aclk = .zero
    · rw [awaitLevel_done isLow, Behavior.finish_bind] at meets
      exact ⟨seen, bus, .refl bus, armed.trans (decide_eq_true isLow), isLow,
        meets⟩
    · have later : Meets (observer check) post
          (seen.after bus (.until .zero text))
          (((awaitLevel .zero).start (bus.sampleMaster .zero text)).bind _) :=
        awaitLevel_reply meets isLow lengths
      have isLow := sampleMaster_aclk bus .zero lengths
      rw [awaitLevel_done isLow, Behavior.finish_bind] at later
      exact ⟨_, _, sampleMaster_sameOutputs bus .zero lengths, rfl, isLow,
        later⟩
  obtain ⟨before, sent, same, isArmed, isLow, meets⟩ := low
  rw [← same.widths] at lengths
  have high : sent.aclk ≠ .one := by
    rw [isLow]
    decide
  have later : Meets (observer check) post
      (before.after sent (.until .one text))
      (((awaitLevel .one).start (sent.sampleMaster .one text)).bind next) :=
    awaitLevel_reply meets high lengths
  rw [awaitLevel_done (sampleMaster_aclk sent .one lengths),
    Behavior.finish_bind] at later
  exact ⟨before, sent, same, isArmed, later⟩

/-- What `wait_for_resp` leaves on the bus after an edge without a response. -/
theorem waitForResp_reply
    {text : SlaveSignal → Text}
    {after : Resp → SimbusAxi4 User →
      Behavior (SimbusAxi4 User) MasterReply Result}
    (waits : bus.bready = .one)
    (armed : seen.armed = decide (bus.aclk = .zero))
    (lengths : SimbusAxi4.HasLengths
      (SimbusAxi4.slaveLength bus.widths) text)
    (silent : decodeBit (text .bvalid) ≠ .one)
    (meets : Meets (observer check) post seen
      ((waitForResp.start bus).bind after)) :
    ∃ before : Observed User, ∃ sent, SameOutputs bus sent ∧
      before.armed = true ∧
      check (before.after sent (.until .one text))
        (sent.sampleMaster .one text).endWriteBeats := by
  have goesOn : bus.aw.valid = .one ∨ bus.wvalid = .one ∨ bus.bready = .one :=
    .inr (.inr waits)
  have exchanges : ∀ locals final rest,
      ((waitForRespTurn (.okay, axi4RespTimelimit)).start bus).run [] ≠
        .finished (.inl locals) final rest := by
    intro locals final rest
    rw [start_waitForRespTurn goesOn]
    by_cases low : bus.aclk = .zero
    · rw [axi4NextPosedge, Program.start_bind, awaitLevel_done low,
        Behavior.finish_bind, awaitLevel_waits (by rw [low]; decide)]
      intro isFinished
      cases isFinished
    · rw [axi4NextPosedge_waits _ low]
      intro isFinished
      cases isFinished
  rw [waitForResp, Program.start_loop exchanges, start_waitForRespTurn goesOn,
    Behavior.bind_assoc, Behavior.bind_assoc] at meets
  obtain ⟨before, sent, same, isArmed, later⟩ :=
    nextPosedge_reply armed lengths meets
  refine ⟨before, sent, same, isArmed, ?_⟩
  rw [← same.widths] at lengths
  generalize isSampled : sent.sampleMaster .one text = sampled at later
  have values := SimbusAxi4.sampleMaster_eq sent .one text lengths
  rw [isSampled] at values
  obtain ⟨_, aclk, _, bready, bvalid, _⟩ := endWriteBeats_frame sampled
  have noResponse : sampled.endWriteBeats.bvalid ≠ .one := by
    rw [bvalid, values]
    exact silent
  have edge : sampled.endWriteEdge = sampled.endWriteBeats := by
    rw [SimbusAxi4.endWriteEdge, if_neg fun both => noResponse both.2]
  have high : sampled.endWriteBeats.aclk ≠ .zero := by
    rw [aclk, values]
    intro isZero
    cases isZero
  have stillWaits : sampled.endWriteBeats.bready = .one := by
    rw [bready, values]
    exact same.bready.trans waits
  rw [Behavior.finish_bind, edge] at later
  simp only [Program.loopNext] at later
  rw [start_waitForResp high (.inr (.inr stillWaits)), Behavior.bind_assoc]
    at later
  exact ((meets_of_waits (axi4NextPosedge_waits _ high)).mp later).1

end Replies

end

end Simbus.Axi4
