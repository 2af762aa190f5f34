import Simbus.Pcie.Beats
import Simbus.Pcie.Edges
import Simbus.Pcie.Queue

/-!
# Clocking out one packet

What one turn of `do_send_tlp_raw` does, and from it what the loop does: on any
replies the transfers that take place are the first ones of the packet, and on
a running clock with a receiver that is ready again and again they are all of
them.
-/

namespace Simbus.Pcie

open FourValued Clocked

variable {User : Type}

/-! ## One turn -/

/-- The client drives the next transfer of a packet. -/
def SimbusPcieTlp.drive
    (bus : SimbusPcieTlp User)
    (data : List (BitVec 32)) : SimbusPcieTlp User :=
  { bus with rxBeat := beatOf data, rxTvalid := .one }

/-- The client drives no transfer. -/
def SimbusPcieTlp.undrive
    (bus : SimbusPcieTlp User) : SimbusPcieTlp User :=
  { bus with rxBeat := .idle, rxTvalid := .zero }

/-- What has happened at the edge that a turn has waited for. -/
structure Transferred
    (bus : SimbusPcieTlp User)
    (data : List (BitVec 32))
    (signals : UntilSignals)
    (bus' : SimbusPcieTlp User) : Prop where
  accepted : bus'.accepted =
    bus.accepted ++ if signals.rxTready = .one then [beatOf data] else []
  queue : bus.outQueue.Extends bus'.outQueue
  rxTready : bus'.rxTready = signals.rxTready
  userClk : bus'.userClk = signals.userClk
  txTvalid : bus'.txTvalid = signals.txTvalid
  fault : bus'.fault = bus.fault

/-- What a turn leaves behind. -/
inductive TurnDone
    (bus : SimbusPcieTlp User)
    (first : BitVec 32)
    (rest : List (BitVec 32))
    (signals : UntilSignals) :
    List (BitVec 32) ⊕ Unit → SimbusPcieTlp User → Prop
  | stalled
      {bus' : SimbusPcieTlp User}
      (transferred : Transferred bus (first :: rest) signals bus')
      (notReady : signals.rxTready ≠ .one) :
      TurnDone bus first rest signals (.inl (first :: rest)) bus'
  | sent
      {bus' : SimbusPcieTlp User}
      (transferred : Transferred bus (first :: rest) signals bus')
      (ready : signals.rxTready = .one)
      (more : rest.drop 1 ≠ []) :
      TurnDone bus first rest signals (.inl (rest.drop 1)) bus'
  | sentLast
      {bus' : SimbusPcieTlp User}
      (transferred : Transferred bus (first :: rest) signals bus')
      (ready : signals.rxTready = .one)
      (last : rest.drop 1 = []) :
      TurnDone bus first rest signals (.inl []) bus'.undrive

section

variable {send : Tlp → Call User Unit}
variable {bus bus' : SimbusPcieTlp User}
variable {data : List (BitVec 32)}
variable {signals : UntilSignals}

theorem transferred_of_pushed
    (pushed : Pushed (recordTransfer ((bus.drive data).sample signals)) bus') :
    Transferred bus data signals bus' := by
  have recorded :
      (recordTransfer ((bus.drive data).sample signals)).lines =
        { userClk := signals.userClk
          rxBeat := beatOf data
          rxTvalid := .one
          rxTready := signals.rxTready
          txTvalid := signals.txTvalid
          accepted := bus.accepted ++
            if signals.rxTready = .one then [beatOf data] else []
          fault := bus.fault } := by
    unfold recordTransfer
    by_cases ready : signals.rxTready = .one
    · have transfers : ((bus.drive data).sample signals).rxTvalid = .one ∧
          ((bus.drive data).sample signals).rxTready = .one := ⟨rfl, ready⟩
      rw [if_pos transfers, if_pos ready]
      rfl
    · have stalls : ¬ (((bus.drive data).sample signals).rxTvalid = .one ∧
          ((bus.drive data).sample signals).rxTready = .one) :=
        fun transfers => ready transfers.2
      rw [if_neg stalls, if_neg ready, List.append_nil]
      rfl
  have sameQueue :
      (recordTransfer ((bus.drive data).sample signals)).outQueue =
        bus.outQueue := by
    unfold recordTransfer
    split <;> rfl
  have lines := pushed.lines.trans recorded
  have queue := pushed.queue
  rw [sameQueue] at queue
  exact
    { accepted := congrArg Lines.accepted lines
      queue := queue
      rxTready := congrArg Lines.rxTready lines
      userClk := congrArg Lines.userClk lines
      txTvalid := congrArg Lines.txTvalid lines
      fault := congrArg Lines.fault lines }

theorem recordTransfer_busy
    (busy : Busy bus) :
    Busy (recordTransfer ((bus.drive data).sample signals)) := by
  unfold recordTransfer
  split <;> exact busy

/-- What follows an edge in the middle of a packet. -/
theorem nested_afterEdge
    (nestedSend : ∀ tlp, Nested (callSendTlp send tlp))
    (busy : Busy bus) :
    (∃ bus', (pcieTlpRecvTlp send).start bus = .finish () bus' ∧
      Pushed bus bus') ∨
    ∃ bus' fault,
      (pcieTlpRecvTlp send).start bus =
        .fail { bus' with fault := some fault } ∧
      Pushed bus bus' ∧ fault.IsReceive ∧ bus.txTvalid = .one := by
  by_cases valid : bus.txTvalid = .one
  · rcases (aboutSender_pushed bus).recvTlp
        (fun tlp => nestedSend tlp bus busy) 0 bus (.refl bus) with
      ⟨_, bus', outcome, pushed⟩ |
      ⟨_, outcome, bus', fault, pushed, receives, rfl⟩
    · exact .inl ⟨bus', outcome, pushed⟩
    · exact .inr ⟨bus', fault, outcome, pushed, receives, valid⟩
  · exact .inl ⟨bus, recvTlp_idle valid, .refl bus⟩

/-- The next edge, in any logic that can wait for it. -/
theorem nextPosedge_ok
    {logic : Logic (SimbusPcieTlp User) Reply}
    {edge : Nat → UntilSignals → Prop}
    {step : Nat}
    (nestedSend : ∀ tlp, Nested (callSendTlp send tlp))
    (busy : Busy bus)
    (waitEdge : logic.ok
      (fun _ step' state => ∃ signals, edge step' signals ∧
        state = recordTransfer ((bus.drive data).sample signals))
      step (waitPosedge.start (bus.drive data)))
    (mayFail : ∀ step' signals bus' fault, edge step' signals →
      Transferred bus data signals bus' → fault.IsReceive →
      signals.txTvalid = .one →
      logic.mayFail { bus' with fault := some fault }) :
    logic.ok
      (fun _ step' state => ∃ signals, edge step' signals ∧
        Transferred bus data signals state)
      step ((pcieTlpNextPosedge send).start (bus.drive data)) := by
  refine logic.bind waitEdge ?_
  rintro _ step' state ⟨signals, isEdge, rfl⟩
  rcases nested_afterEdge nestedSend (recordTransfer_busy busy) with
    ⟨bus', outcome, pushed⟩ |
    ⟨bus', fault, outcome, pushed, receives, valid⟩
  · rw [outcome]
    exact logic.finish ⟨signals, isEdge, transferred_of_pushed pushed⟩
  · rw [outcome]
    have transferred := transferred_of_pushed pushed
    refine logic.fail (mayFail step' signals bus' fault isEdge transferred
      receives ?_)
    rw [← valid]
    unfold recordTransfer
    split <;> rfl

/-- One turn of the loop, in any logic that can wait for the edge. -/
theorem sendBeat_ok
    {logic : Logic (SimbusPcieTlp User) Reply}
    {edge : Nat → UntilSignals → Prop}
    {step : Nat}
    {first : BitVec 32}
    {rest : List (BitVec 32)}
    (nestedSend : ∀ tlp, Nested (callSendTlp send tlp))
    (busy : Busy bus)
    (waitEdge : logic.ok
      (fun _ step' state => ∃ signals, edge step' signals ∧
        state = recordTransfer
          ((bus.drive (first :: rest)).sample signals))
      step (waitPosedge.start (bus.drive (first :: rest))))
    (mayFail : ∀ step' signals bus' fault, edge step' signals →
      Transferred bus (first :: rest) signals bus' → fault.IsReceive →
      signals.txTvalid = .one →
      logic.mayFail { bus' with fault := some fault }) :
    logic.ok
      (fun outcome step' state => ∃ signals, edge step' signals ∧
        TurnDone bus first rest signals outcome state)
      step ((sendBeat send (first :: rest)).start bus) := by
  have posedge := nextPosedge_ok nestedSend busy waitEdge mayFail
  change logic.ok _ step
    (((pcieTlpNextPosedge send).start (bus.drive (first :: rest))).bind _)
  refine logic.bind posedge ?_
  rintro _ step' state ⟨signals, isEdge, transferred⟩
  simp only [Program.start_bind, Program.start_getState,
    Behavior.finish_bind, Program.start_ite]
  split
  · rename_i isReady
    have ready : signals.rxTready = .one := by
      rw [← transferred.rxTready]
      exact isReady
    split
    · rename_i last
      rw [last]
      exact logic.finish
        ⟨signals, isEdge, .sentLast transferred ready last⟩
    · rename_i more
      exact logic.finish ⟨signals, isEdge, .sent transferred ready more⟩
  · rename_i notReady
    rw [transferred.rxTready] at notReady
    exact logic.finish ⟨signals, isEdge, .stalled transferred notReady⟩

/-! ## The whole packet -/

/-- A packet has been sent up to some rest. -/
structure SentUpTo
    (bus : SimbusPcieTlp User)
    (data rest : List (BitVec 32))
    (bus' : SimbusPcieTlp User) : Prop where
  accepted : ∃ done, beats data = done ++ beats rest ∧
    bus'.accepted = bus.accepted ++ done
  queue : bus.outQueue.Extends bus'.outQueue
  fault : bus'.fault = bus.fault
  undriven : rest = [] → bus'.rxTvalid = .zero

theorem SentUpTo.start
    (bus : SimbusPcieTlp User)
    (nonempty : data ≠ []) :
    SentUpTo bus data data bus where
  accepted := ⟨[], rfl, by rw [List.append_nil]⟩
  queue := .refl _
  fault := rfl
  undriven := fun empty => (nonempty empty).elim

theorem SentUpTo.busy
    {rest : List (BitVec 32)}
    (sent : SentUpTo bus data rest bus')
    (busy : Busy bus) :
    Busy bus' := by
  obtain ⟨items, nonempty, holds⟩ := busy
  obtain ⟨added, _, extended⟩ := sent.queue
  exact ⟨items ++ added, by simp [nonempty], extended items nonempty holds⟩

/-- Every turn that goes on leaves a packet that is sent up to its rest. -/
theorem SentUpTo.turn
    {first : BitVec 32}
    {rest : List (BitVec 32)}
    {outcome : List (BitVec 32) ⊕ Unit}
    {after : SimbusPcieTlp User}
    (sent : SentUpTo bus data (first :: rest) bus')
    (done : TurnDone bus' first rest signals outcome after) :
    ∃ next, outcome = .inl next ∧ SentUpTo bus data next after ∧
      (next = first :: rest ∧ signals.rxTready ≠ .one ∨
        next = rest.drop 1) ∧
      after.userClk = signals.userClk := by
  obtain ⟨before, shape, accepted⟩ := sent.accepted
  have goOn {bus'' : SimbusPcieTlp User}
      (transferred : Transferred bus' (first :: rest) signals bus'')
      (ready : signals.rxTready = .one) :
      ∃ done, beats data = done ++ beats (rest.drop 1) ∧
        bus''.accepted = bus.accepted ++ done := by
    refine ⟨before ++ [beatOf (first :: rest)], ?_, ?_⟩
    · rw [shape, beats_cons, List.append_assoc, List.singleton_append]
    · rw [transferred.accepted, if_pos ready, accepted, List.append_assoc]
  cases done with
  | stalled transferred notReady =>
      refine ⟨_, rfl, ⟨⟨before, shape, ?_⟩,
        sent.queue.trans transferred.queue,
        transferred.fault.trans sent.fault, nofun⟩,
        .inl ⟨rfl, notReady⟩, transferred.userClk⟩
      rw [transferred.accepted, if_neg notReady, List.append_nil, accepted]
  | sent transferred ready more =>
      exact ⟨_, rfl, ⟨goOn transferred ready,
        sent.queue.trans transferred.queue,
        transferred.fault.trans sent.fault,
        fun empty => (more empty).elim⟩, .inr rfl, transferred.userClk⟩
  | sentLast transferred ready last =>
      have went := goOn transferred ready
      rw [last] at went
      exact ⟨_, rfl, ⟨went,
        sent.queue.trans transferred.queue,
        transferred.fault.trans sent.fault, fun _ => rfl⟩,
        .inr last.symm, transferred.userClk⟩

/-- What is needed of the states in which a packet is on its way. -/
structure SendingStates
    (bus : SimbusPcieTlp User)
    (data : List (BitVec 32))
    (waits fails : SimbusPcieTlp User → Prop) : Prop where
  waits : ∀ first rest bus' signals, SentUpTo bus data (first :: rest) bus' →
    waits ((bus'.drive (first :: rest)).sample signals)
  spins : ∀ first rest bus' signals, SentUpTo bus data (first :: rest) bus' →
    fails ((bus'.drive (first :: rest)).sample signals)
  between : ∀ rest bus', SentUpTo bus data rest bus' → fails bus'
  fails : ∀ first rest bus' bus'' signals fault,
    SentUpTo bus data (first :: rest) bus' →
    Transferred bus' (first :: rest) signals bus'' → fault.IsReceive →
    fails { bus'' with fault := some fault }

/-- On any replies the first transfers of the packet have taken place. -/
theorem safety_doSendTlpRaw
    {waits fails : SimbusPcieTlp User → Prop}
    (nestedSend : ∀ tlp, Nested (callSendTlp send tlp))
    (busy : Busy bus)
    (nonempty : data ≠ [])
    (states : SendingStates bus data waits fails)
    (step : Nat) :
    (safety waits fails).ok (fun _ _ => SentUpTo bus data [])
      step ((doSendTlpRaw send data).start bus) := by
  refine safety_loop (fun rest _ => SentUpTo bus data rest)
    (fun rest _ => states.between rest) ?_ data step bus
    (.start bus nonempty)
  intro rest step bus' sent
  cases rest with
  | nil =>
      exact safe_finish.mpr ⟨step, sent⟩
  | cons first rest =>
      have waitEdge : (safety waits fails).ok
          (fun _ _ state => ∃ signals, True ∧
            state = recordTransfer
              ((bus'.drive (first :: rest)).sample signals))
          step (waitPosedge.start (bus'.drive (first :: rest))) := by
        refine Logic.mono (safety_waitPosedge (fun signals =>
          ⟨states.waits first rest bus' signals sent,
            states.spins first rest bus' signals sent⟩) step) ?_
        rintro _ _ state ⟨signals, shape⟩
        exact ⟨signals, trivial, shape⟩
      have turn := sendBeat_ok nestedSend (sent.busy busy) waitEdge
        (fun _ signals bus'' fault _ transferred receives _ =>
          states.fails first rest bus' bus'' signals fault sent transferred
            receives)
      refine Logic.mono turn ?_
      rintro outcome step' after ⟨signals, _, done⟩
      obtain ⟨next, rfl, sent', _⟩ := sent.turn done
      exact sent'

end

/-! ## A receiver that is ready again and again -/

/-- A running clock with a receiver that is ready at edges again and again. -/
structure ReadyStream
    (start : Logic4)
    (stream : Nat → UntilSignals) : Prop where
  clock : RunningClock start stream
  ready : ∀ step, ∃ edge, step ≤ edge ∧ IsEdge start stream edge ∧
    (stream edge).rxTready = .one

section

variable {start : Logic4}
variable {stream : Nat → UntilSignals}

open Classical in
/-- The next edge at which the receiver is ready. -/
noncomputable def ReadyStream.nextReady
    (endpoint : ReadyStream start stream)
    (step : Nat) : Nat :=
  Nat.find (endpoint.ready step)

/-- An edge without the receiver brings the next one with it closer. -/
theorem ReadyStream.nextReady_closer
    (endpoint : ReadyStream start stream)
    {step edge : Nat}
    (next : NextEdge start stream step edge)
    (notReady : (stream edge).rxTready ≠ .one) :
    endpoint.nextReady (edge + 1) - (edge + 1) <
      endpoint.nextReady step - step := by
  classical
  obtain ⟨later, isEdge, ready⟩ := Nat.find_spec (endpoint.ready step)
  change step ≤ endpoint.nextReady step at later
  change IsEdge start stream (endpoint.nextReady step) at isEdge
  change (stream (endpoint.nextReady step)).rxTready = .one at ready
  have beyond : edge < endpoint.nextReady step := by
    rcases Nat.lt_trichotomy (endpoint.nextReady step) edge with
      before | same | after
    · exact (next.first _ later before isEdge).elim
    · rw [same] at ready
      exact (notReady ready).elim
    · exact after
  have sooner : endpoint.nextReady (edge + 1) ≤ endpoint.nextReady step :=
    Nat.find_min' _ ⟨beyond, isEdge, ready⟩
  have begun := next.later
  omega

variable {send : Tlp → Call User Unit}
variable {bus : SimbusPcieTlp User}
variable {data : List (BitVec 32)}

/-- A packet is on its way since a step. -/
structure SendingAt
    (start : Logic4)
    (stream : Nat → UntilSignals)
    (bus : SimbusPcieTlp User)
    (data : List (BitVec 32))
    (begin : Nat)
    (rest : List (BitVec 32))
    (step : Nat)
    (bus' : SimbusPcieTlp User) : Prop where
  sent : SentUpTo bus data rest bus'
  aligned : bus'.userClk = clockBefore start stream step
  begun : rest = data ∧ step = begin ∨ begin < step

/-- All transfers of the packet take place, unless the receiver fails. -/
theorem progress_doSendTlpRaw
    {fails escape : SimbusPcieTlp User → Prop}
    (endpoint : ReadyStream start stream)
    (nestedSend : ∀ tlp, Nested (callSendTlp send tlp))
    (busy : Busy bus)
    (nonempty : data ≠ [])
    (mayFail : ∀ (bus' : SimbusPcieTlp User) (fault : Fault),
      fault.IsReceive → bus'.txTvalid = .one →
      bus.outQueue.Extends bus'.outQueue →
      fails { bus' with fault := some fault })
    {step : Nat}
    (aligned : bus.userClk = clockBefore start stream step) :
    (progress (untilReplies stream) fails escape).ok
      (fun _ step' bus' => SentUpTo bus data [] bus' ∧
        bus'.userClk = clockBefore start stream step' ∧ step < step')
      step ((doSendTlpRaw send data).start bus) := by
  refine progress_loop (Prod.lex Nat.lt_wfRel Nat.lt_wfRel).wf
    (SendingAt start stream bus data step)
    (fun rest step => (rest.length, endpoint.nextReady step - step))
    ?_ data step bus ⟨.start bus nonempty, aligned, .inl ⟨rfl, rfl⟩⟩
  rintro rest now bus' ⟨sent, aligned', begun⟩
  cases rest with
  | nil =>
      rcases begun with ⟨isData, _⟩ | begun
      · exact (nonempty isData.symm).elim
      · exact .now (.finished ⟨sent, aligned', begun⟩)
  | cons first rest =>
      have waitEdge : (progress (untilReplies stream) fails escape).ok
          (fun _ step' state => ∃ signals,
            (∃ edge, NextEdge start stream now edge ∧ step' = edge + 1 ∧
              signals = stream edge) ∧
            state = recordTransfer
              ((bus'.drive (first :: rest)).sample signals))
          now (waitPosedge.start (bus'.drive (first :: rest))) := by
        refine Logic.mono
          (progress_waitPosedge endpoint.clock aligned') ?_
        rintro _ step' state ⟨edge, next, isAfter, shape⟩
        exact ⟨stream edge, ⟨edge, next, isAfter, rfl⟩, shape⟩
      have turn := sendBeat_ok nestedSend (sent.busy busy) waitEdge
        (fun _ signals bus'' fault _ transferred receives valid =>
          mayFail bus'' fault receives (transferred.txTvalid.trans valid)
            (sent.queue.trans transferred.queue))
      refine Logic.mono turn ?_
      rintro outcome step' after ⟨signals, ⟨edge, next, rfl, rfl⟩, done⟩
      obtain ⟨left, rfl, sent', goesOn, sampled⟩ := sent.turn done
      have started := next.later
      have begun' : step < edge + 1 := by
        rcases begun with ⟨_, isNow⟩ | begun
        · omega
        · omega
      refine ⟨⟨sent', sampled, .inr begun'⟩, by omega, ?_⟩
      rcases goesOn with ⟨rfl, notReady⟩ | rfl
      · exact Prod.Lex.right _ (endpoint.nextReady_closer next notReady)
      · refine Prod.Lex.left _ _ ?_
        change (rest.drop 1).length < (first :: rest).length
        rw [List.length_drop, List.length_cons]
        omega

end

/-! ## What the receiver of a packet gets -/

/-- The words of a packet come out of its transfers. -/
structure Reassembles (tlp : Tlp) : Prop where
  /-- They are assembled each once and in order, -/
  words : assembledWords tlp.beats = tlp.words
  /-- no transfer ends in the middle of one, -/
  whole : ∀ beat ∈ tlp.beats, (assemble beat).bytes = 0
  /-- TLAST is set in the last transfer only, -/
  tlast : ∃ front last, tlp.beats = front ++ [last] ∧ last.tlast = .one ∧
    ∀ beat ∈ front, beat.tlast = .zero
  /-- and the buffer of a receiver has them if they fit into it. -/
  received : ∀ {User : Type} (receiver : SimbusPcieTlp User),
    receiver.sTlpCnt = 0 → tlp.words.length ≤ maxTlp →
    ∃ receiver', (crankAll (assembledWords tlp.beats)).start receiver =
        .finish () receiver' ∧
      receiver'.received = tlp.words

theorem reassembles (tlp : Tlp) : Reassembles tlp where
  words := assembledWords_beats tlp.words
  whole := fun _ => assemble_bytes_beats
  tlast := beats_tlast tlp.nonempty
  received := by
    intro User receiver isEmpty fits
    have words : assembledWords tlp.beats = tlp.words :=
      assembledWords_beats tlp.words
    rw [words]
    obtain ⟨buf, outcome, all⟩ := crankAll_received
      (show receiver.sTlpCnt + tlp.words.length ≤ maxTlp by omega)
    refine ⟨_, outcome, ?_⟩
    change (List.range (receiver.sTlpCnt + tlp.words.length)).map buf = _
    rw [all, SimbusPcieTlp.received, isEmpty]
    rfl

/-- The transfers of a packet that have taken place after some replies. -/
def TransfersSoFar
    (bus : SimbusPcieTlp User)
    (tlp : Tlp) :
    Outcome (SimbusPcieTlp User) Reply Unit → Prop
  | .waiting bus' =>
      ∃ done, done <+: tlp.beats ∧ bus'.accepted = bus.accepted ++ done
  | .failed bus' =>
      ∃ done, done <+: tlp.beats ∧ bus'.accepted = bus.accepted ++ done
  | .finished _ bus' _ =>
      bus'.accepted = bus.accepted ++ tlp.beats ∧ bus'.rxTvalid = .zero

/--
The packet has been sent.  The call can also have failed an assertion about a
transfer that the endpoint has sent in the meantime.
-/
def AllTransfers
    (bus : SimbusPcieTlp User)
    (tlp : Tlp) :
    Outcome (SimbusPcieTlp User) Reply Unit → Prop
  | .waiting _ => False
  | .failed bus' =>
      bus'.txTvalid = .one ∧ ∃ fault, bus'.fault = some fault ∧ fault.IsReceive
  | .finished _ bus' _ =>
      bus'.accepted = bus.accepted ++ tlp.beats ∧ bus'.rxTvalid = .zero

theorem SentUpTo.soFar
    {bus bus' : SimbusPcieTlp User}
    {data rest : List (BitVec 32)}
    (sent : SentUpTo bus data rest bus') :
    ∃ done, done <+: beats data ∧ bus'.accepted = bus.accepted ++ done := by
  obtain ⟨done, shape, accepted⟩ := sent.accepted
  exact ⟨done, ⟨beats rest, shape.symm⟩, accepted⟩

theorem SentUpTo.all
    {bus bus' : SimbusPcieTlp User}
    {data : List (BitVec 32)}
    (sent : SentUpTo bus data [] bus') :
    bus'.accepted = bus.accepted ++ beats data ∧ bus'.rxTvalid = .zero := by
  obtain ⟨done, shape, accepted⟩ := sent.accepted
  rw [beats, List.append_nil] at shape
  rw [shape]
  exact ⟨accepted, sent.undriven rfl⟩

/-- A transfer that takes place is the next one of the packet. -/
theorem SentUpTo.transferred
    {bus bus' bus'' : SimbusPcieTlp User}
    {data rest : List (BitVec 32)}
    {first : BitVec 32}
    {signals : UntilSignals}
    (sent : SentUpTo bus data (first :: rest) bus')
    (transferred : Transferred bus' (first :: rest) signals bus'') :
    ∃ done, done <+: beats data ∧ bus''.accepted = bus.accepted ++ done := by
  obtain ⟨done, shape, accepted⟩ := sent.accepted
  rw [transferred.accepted, accepted, List.append_assoc]
  refine ⟨_, ?_, rfl⟩
  rw [shape, beats_cons]
  split
  · exact ⟨beats (rest.drop 1), by
      rw [List.append_assoc, List.singleton_append]⟩
  · rw [List.append_nil]
    exact List.prefix_append _ _

/--
While the drain loop of `__pcie_tlp_send_tlp` has a packet in its list, a call
of `do_send_tlp_raw` transfers the packet: the first transfers of it, whatever
the replies are, and all of them if the receiver is ready again and again.
-/
theorem doSendTlpRaw_transfers
    {bus : SimbusPcieTlp User}
    (busy : Busy bus)
    (tlp : Tlp)
    (stack : Nat) :
    Reassembles tlp ∧
      (∀ inputs, TransfersSoFar bus tlp
        (((doSendTlpRaw (pcieTlpSendTlp (stack + 1)) tlp.words).start
          bus).run inputs)) ∧
      ∀ stream, ReadyStream bus.userClk stream →
        ∃ count, AllTransfers bus tlp
          (((doSendTlpRaw (pcieTlpSendTlp (stack + 1)) tlp.words).start
            bus).run (stretch (untilReplies stream) 0 count)) := by
  refine ⟨reassembles tlp, ?_, ?_⟩
  · let underway (bus' : SimbusPcieTlp User) : Prop :=
      ∃ done, done <+: tlp.beats ∧ bus'.accepted = bus.accepted ++ done
    have states : SendingStates bus tlp.words underway underway :=
      { waits := fun _ _ _ _ sent => sent.soFar
        spins := fun _ _ _ _ sent => sent.soFar
        between := fun _ _ sent => sent.soFar
        fails := by
          intro _ _ _ _ _ _ sent transferred _
          have went := sent.transferred transferred
          exact went }
    have safe := safety_doSendTlpRaw (nested_sendTlp stack) busy
      tlp.nonempty states 0
    intro inputs
    have sound := safe inputs fun _ _ => trivial
    generalize (((doSendTlpRaw (pcieTlpSendTlp (stack + 1)) tlp.words).start
      bus).run inputs) = outcome at sound
    cases outcome with
    | waiting bus' =>
        exact sound
    | failed bus' =>
        exact sound
    | finished value bus' rest =>
        obtain ⟨_, sent⟩ := sound
        exact sent.all
  · intro stream endpoint
    let receiverFailed (bus' : SimbusPcieTlp User) : Prop :=
      bus'.txTvalid = .one ∧ ∃ fault, bus'.fault = some fault ∧ fault.IsReceive
    have leads : (progress (untilReplies stream) receiverFailed
        fun _ => False).ok _ 0 _ :=
      progress_doSendTlpRaw endpoint (nested_sendTlp stack) busy tlp.nonempty
        (fun bus' fault receives valid _ => ⟨valid, fault, rfl, receives⟩) rfl
    obtain ⟨count, ended⟩ := leads.outcome
    refine ⟨count, ?_⟩
    generalize (((doSendTlpRaw (pcieTlpSendTlp (stack + 1)) tlp.words).start
      bus).run (stretch (untilReplies stream) 0 count)) = outcome at ended
    cases outcome with
    | waiting bus' =>
        exact ended
    | failed bus' =>
        exact ended
    | finished value bus' rest =>
        exact ended.1.all

/-! ## An endpoint that is always ready -/

/-- A clock that toggles with every message, and a receiver that is ready. -/
def steadyStream (step : Nat) : UntilSignals where
  userClk := if step % 2 = 0 then .zero else .one
  rxTready := .one
  txBeat := .idle
  txTvalid := .zero
  txTuser := fun _ => .zero

theorem steadyStream_isEdge (turn : Nat) :
    IsEdge .one steadyStream (2 * turn + 1) := by
  constructor
  · change (if 2 * turn % 2 = 0 then Logic4.zero else .one) = .zero
    rw [Nat.mul_mod_right, if_pos rfl]
  · change (if (2 * turn + 1) % 2 = 0 then Logic4.zero else .one) = .one
    rw [if_neg (by omega)]

theorem steadyStream_ready : ReadyStream .one steadyStream where
  clock :=
    { digital := by
        intro step
        cases step with
        | zero =>
            exact .inr rfl
        | succ step =>
            change (if step % 2 = 0 then Logic4.zero else .one) = .zero ∨
              (if step % 2 = 0 then Logic4.zero else .one) = .one
            split
            · exact .inl rfl
            · exact .inr rfl
      rises := fun step =>
        ⟨2 * step + 1, by omega, steadyStream_isEdge step⟩ }
  ready := fun step =>
    ⟨2 * step + 1, by omega, steadyStream_isEdge step, rfl⟩

/-- A client with one packet in its list. -/
def loneClient (tlp : Tlp) : SimbusPcieTlp Unit :=
  { SimbusPcieTlp.init () none none with
    tlpOutList := some 0
    cells :=
      Function.update (fun _ => none) 0 (some { data := tlp, next := 0 })
    cellCount := 1
    enqueued := [tlp] }

theorem loneClient_busy (tlp : Tlp) : Busy (loneClient tlp) := by
  refine ⟨[(0, tlp)], List.cons_ne_nil _ _, ?_, ?_⟩
  · exact Ring.circle_singleton (fun _ => none) 0 tlp
  · intro cell member
    obtain rfl := List.mem_singleton.mp member
    exact Nat.one_pos

/-- Three words take two transfers, and both take place. -/
theorem doSendTlpRaw_threeWords :
    ∃ count, AllTransfers (loneClient ⟨[1, 2, 3], by decide⟩)
      ⟨[1, 2, 3], by decide⟩
      (((doSendTlpRaw (pcieTlpSendTlp 1) [1, 2, 3]).start
        (loneClient ⟨[1, 2, 3], by decide⟩)).run
          (stretch (untilReplies steadyStream) 0 count)) :=
  (doSendTlpRaw_transfers (loneClient_busy _) ⟨[1, 2, 3], by decide⟩ 0).2.2
    steadyStream steadyStream_ready

end Simbus.Pcie
