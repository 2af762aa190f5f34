import Simbus.Pcie.Access
import Simbus.Pcie.Session

/-!
# The way of a request and of its answer

While a request is sent and the endpoint says nothing, the receiver is left
alone.  The answer then arrives in transfers at some of the edges, and the last
of them ends the wait for the completion.
-/

namespace Simbus.Pcie

open FourValued Clocked

variable {User : Type}

/-! ## Sending to a silent endpoint -/

/-- What a silent endpoint leaves alone, and the packets that were passed on. -/
structure Inbox where
  sTlpCnt : Nat
  completions : BitVec 8 → Option (List (BitVec 32))
  txTready : Logic4
  tlpNextTag : BitVec 8
  fault : Option Fault
  enqueued : List Tlp

def SimbusPcieTlp.inbox (bus : SimbusPcieTlp User) : Inbox where
  sTlpCnt := bus.sTlpCnt
  completions := bus.completions
  txTready := bus.txTready
  tlpNextTag := bus.tlpNextTag
  fault := bus.fault
  enqueued := bus.enqueued

/--
The receiver has a certain state, and the endpoint says nothing, unless what it
last said is sampled anew before anything is received.
-/
structure Unheard (inbox : Inbox) (bus : SimbusPcieTlp User) : Prop where
  same : bus.inbox = inbox
  unread : bus.txTvalid = .one → bus.userClk = .zero ∨ bus.userClk = .one

/-- Replies without a transfer of the endpoint. -/
def Silent : Reply → Prop
  | .until signals => signals.txTvalid ≠ .one
  | .finish => True

/-- A client that waits has a certain receiver, and it fails on its own. -/
def undisturbed (inbox : Inbox) : Logic (SimbusPcieTlp User) Reply :=
  safetyOn Silent (fun bus => bus.inbox = inbox)
    fun bus => ¬ ReceiverFailed bus

section

variable {inbox : Inbox}
variable {Value : Type}

theorem not_receiverFailed
    {bus : SimbusPcieTlp User}
    (same : bus.inbox = inbox)
    (faultless : inbox.fault = none) :
    ¬ ReceiverFailed bus := by
  rintro ⟨fault, failed, _⟩
  have none : bus.fault = none :=
    (congrArg Inbox.fault same).trans faultless
  rw [none] at failed
  cases failed

theorem Unheard.of_notValid
    {bus : SimbusPcieTlp User}
    (same : bus.inbox = inbox)
    (notValid : bus.txTvalid ≠ .one) :
    Unheard inbox bus where
  same := same
  unread := fun valid => absurd valid notValid

theorem undisturbed_modifyState
    {change : SimbusPcieTlp User → SimbusPcieTlp User}
    (sameInbox : ∀ bus, (change bus).inbox = bus.inbox)
    (sameValid : ∀ bus, (change bus).txTvalid = bus.txTvalid)
    (sameClk : ∀ bus, (change bus).userClk = bus.userClk) :
    (undisturbed inbox).Keeps (fun _ => Unheard inbox)
      (Program.modifyState change) := by
  refine .modifyState ?_
  rintro _ bus ⟨same, unread⟩
  refine ⟨(sameInbox bus).trans same, fun valid => ?_⟩
  rw [sameClk]
  exact unread (sameValid bus ▸ valid)

theorem undisturbed_failAt
    {fault : Fault}
    (own : ¬ fault.IsReceive) :
    (undisturbed inbox).Keeps (fun _ => Unheard inbox)
      (failAt fault : Call User Value) := by
  intro step bus _
  refine (undisturbed inbox).fail ?_
  rintro ⟨_, ⟨⟩, receives⟩
  exact own receives

/-- What a loop of the clock samples is silent. -/
theorem undisturbed_clockLoop
    {holds : SimbusPcieTlp User → Prop}
    (faultless : inbox.fault = none)
    (same : ∀ bus, holds bus → bus.inbox = inbox)
    (sampled : ∀ bus, bus.inbox = inbox → bus.txTvalid ≠ .one → holds bus)
    (condition : SimbusPcieTlp User → Bool) :
    (undisturbed inbox).Triple (fun _ => holds)
      (Program.whileDo condition clockTurn)
      fun _ _ bus => holds bus ∧ condition bus = false := by
  refine safety_whileDo (fun _ => holds) ?_ ?_
  · exact fun _ bus before => not_receiverFailed (same bus before) faultless
  · rintro step bus ⟨before, _⟩
    have kept := same bus before
    rw [start_clockTurn]
    refine safe_await.mpr ⟨kept, fun reply isSilent => ?_⟩
    cases reply with
    | finish =>
        exact safe_finish.mpr ⟨step, before⟩
    | «until» signals =>
        exact safe_finish.mpr ⟨step, sampled _ kept isSilent⟩

/-- At an edge the endpoint has been sampled, and says nothing. -/
theorem undisturbed_waitPosedge
    (faultless : inbox.fault = none) :
    (undisturbed inbox).Triple (fun _ => Unheard inbox)
      (waitPosedge : Call User Unit)
      fun _ _ bus => bus.inbox = inbox ∧ bus.txTvalid ≠ .one := by
  refine .bind (undisturbed_clockLoop faultless (fun _ => Unheard.same)
    (fun _ => Unheard.of_notValid) _) fun _ => ?_
  -- After the first loop the clock is 0, or neither 0 nor 1.
  let low (bus : SimbusPcieTlp User) : Prop :=
    bus.inbox = inbox ∧ (bus.txTvalid = .one → bus.userClk = .zero)
  refine Logic.Triple.weaken (.bind (undisturbed_clockLoop faultless
    (fun bus (isLow : low bus) => isLow.1)
    (fun _ same notValid => ⟨same, fun valid => absurd valid notValid⟩) _)
    fun _ => ?_) ?_ fun _ _ _ => id
  · refine .modifyState ?_
    rintro _ bus ⟨⟨same, unread⟩, ends⟩
    have notLow := of_decide_eq_false ends
    have notValid : bus.txTvalid ≠ .one := fun valid => notLow (unread valid)
    unfold recordTransfer
    split <;> exact ⟨same, notValid⟩
  · rintro _ bus ⟨⟨same, unread⟩, ends⟩
    have notHigh := of_decide_eq_false ends
    exact ⟨same, fun valid => (unread valid).resolve_right notHigh⟩

theorem undisturbed_nextPosedge
    (faultless : inbox.fault = none)
    (send : Tlp → Call User Unit) :
    (undisturbed inbox).Keeps (fun _ => Unheard inbox)
      (pcieTlpNextPosedge send) := by
  refine Logic.Triple.bind (undisturbed_waitPosedge faultless) fun _ => ?_
  rintro step bus ⟨same, notValid⟩
  rw [recvTlp_idle notValid]
  exact (undisturbed inbox).finish (.of_notValid same notValid)

theorem undisturbed_sendTlpRaw
    (faultless : inbox.fault = none)
    (send : Tlp → Call User Unit)
    (data : List (BitVec 32)) :
    (undisturbed inbox).Keeps (fun _ => Unheard inbox)
      (doSendTlpRaw send data) := by
  refine safety_loop (fun _ _ => Unheard inbox)
    (fun _ _ bus unheard => not_receiverFailed unheard.same faultless) ?_ data
  intro rest
  cases rest with
  | nil =>
      exact .pure fun _ _ unheard => unheard
  | cons first rest =>
      refine .bind (undisturbed_modifyState (fun _ => rfl) (fun _ => rfl) fun _ => rfl)
        fun _ => ?_
      refine .bind (undisturbed_nextPosedge faultless send) fun _ => ?_
      refine .getState fun step bus unheard => ?_
      simp only
      split
      · split
        · exact (undisturbed inbox).finish ⟨unheard.same, unheard.unread⟩
        · exact (undisturbed inbox).finish unheard
      · exact (undisturbed inbox).finish unheard

theorem undisturbed_readCell (cell : Nat) :
    (undisturbed inbox).Keeps (fun _ => Unheard inbox)
      (readCell cell : Call User (Ring.Cell Tlp)) := by
  intro step bus unheard
  rw [readCell]
  simp only
  split
  · exact undisturbed_failAt (by exact id) step bus unheard
  · exact (undisturbed inbox).finish unheard

theorem undisturbed_setNext (cell next : Nat) :
    (undisturbed inbox).Keeps (fun _ => Unheard inbox)
      (setNext cell next : Call User Unit) :=
  .bind (undisturbed_readCell cell) fun _ =>
    undisturbed_modifyState (fun _ => rfl) (fun _ => rfl) fun _ => rfl

theorem undisturbed_outList :
    (undisturbed inbox).Keeps (fun _ => Unheard inbox)
      (outList : Call User Nat) := by
  refine .getState fun bus => ?_
  split
  · exact undisturbed_failAt (by exact id)
  · exact .pure _

theorem undisturbed_check
    {fault : Fault}
    (own : ¬ fault.IsReceive)
    (condition : SimbusPcieTlp User → Bool) :
    (undisturbed inbox).Keeps (fun _ => Unheard inbox)
      (check fault condition) := by
  intro step bus unheard
  rw [check]
  simp only
  split
  · exact (undisturbed inbox).finish unheard
  · exact undisturbed_failAt own step bus unheard

theorem undisturbed_unlink (cell : Nat) :
    (undisturbed inbox).Keeps (fun _ => Unheard inbox)
      (unlink cell : Call User Unit) := by
  refine .getState fun bus => ?_
  refine .ite ?_ ?_
  · exact .bind (undisturbed_modifyState (fun _ => rfl) (fun _ => rfl) fun _ => rfl)
      fun _ => undisturbed_modifyState (fun _ => rfl) (fun _ => rfl) fun _ => rfl
  · refine .bind undisturbed_outList fun list => ?_
    refine .bind (undisturbed_readCell list) fun tail => ?_
    refine .bind (undisturbed_check (by exact id) _) fun _ => ?_
    refine .bind (undisturbed_readCell cell) fun curCell => ?_
    exact .bind (undisturbed_setNext list curCell.next) fun _ =>
      undisturbed_modifyState (fun _ => rfl) (fun _ => rfl) fun _ => rfl

theorem undisturbed_drain
    (faultless : inbox.fault = none)
    (send : Tlp → Call User Unit) :
    (undisturbed inbox).Keeps (fun _ => Unheard inbox) (drain send) := by
  have turn : (undisturbed inbox).Keeps (fun _ => Unheard inbox)
      (drainOne send) := by
    refine .bind undisturbed_outList fun list => ?_
    refine .bind (undisturbed_readCell list) fun tail => ?_
    refine .bind (undisturbed_readCell tail.next) fun cur => ?_
    exact .bind (undisturbed_sendTlpRaw faultless send cur.data.words)
      fun _ => undisturbed_unlink tail.next
  refine Logic.Triple.weaken
    (safety_whileDo (fun _ => Unheard inbox) ?_ ?_) (fun _ _ => id)
    fun _ _ _ reached => reached.1
  · exact fun _ bus unheard => not_receiverFailed unheard.same faultless
  · exact fun step bus before => turn step bus before.1

/-- A packet goes out to a silent endpoint, and nothing else does. -/
theorem sendTlp_silent
    {bus : SimbusPcieTlp User}
    {stream : Nat → UntilSignals}
    (idle : AllSent bus)
    (endpoint : ReadyStream bus.userClk stream)
    (silent : ∀ step, (stream step).txTvalid ≠ .one)
    (stack : Nat)
    (tlp : Tlp) :
    ∃ length bus',
      ((callSendTlp (pcieTlpSendTlp (stack + 2)) tlp).start bus).run
          (stretch (untilReplies stream) 0 length) = .finished () bus' [] ∧
        AllSent bus' ∧
        bus'.inbox = { bus.inbox with enqueued := bus.enqueued ++ [tlp] } ∧
        bus'.userClk = clockBefore bus.userClk stream length := by
  obtain ⟨outcome, between⟩ := sendTlp_outermost idle (stack + 1) tlp
  have faultless : (bus.listed tlp).inbox.fault = none := idle.faultless
  have unheard : Unheard (bus.listed tlp).inbox (bus.listed tlp) :=
    ⟨rfl, fun _ => endpoint.clock.digital 0⟩
  have safe := undisturbed_drain faultless (pcieTlpSendTlp (stack + 1)) 0 _
    unheard
  have leads := progress_drain endpoint (nested_sendTlp stack)
    (bus.enqueued.length + 2) 0 (bus.listed tlp)
    ⟨⟨_, _, between, Nat.zero_le _⟩, rfl⟩
  -- More packets than have been passed on are never sent.
  have noEscape : ∀ bus' : SimbusPcieTlp User,
      bus'.inbox = (bus.listed tlp).inbox →
      ¬ Underway (bus.enqueued.length + 2) bus' := by
    rintro bus' same ⟨sent, items, done, transmission, _, _, enough⟩
    have all : sent ++ items.map Prod.snd = bus.enqueued ++ [tlp] :=
      transmission.enqueued.symm.trans (congrArg Inbox.enqueued same)
    have count := congrArg List.length all
    rw [List.length_append, List.length_append, List.length_singleton] at count
    omega
  obtain ⟨length, _, bus', ran, ⟨allSent, onTime⟩, _, still⟩ :=
    leads.finishes safe silent noEscape fun _ own => own
  refine ⟨length, bus', ?_, allSent, still.same, ?_⟩
  · rw [outcome]
    exact ran
  · rw [OnTime, Nat.zero_add] at onTime
    exact onTime

end

/-! ## The answer of the endpoint -/

/-- From a step on, some transfers of the endpoint take place at edges. -/
inductive Delivers
    (start : Logic4)
    (stream : Nat → UntilSignals) : Nat → List Beat → Prop
  | done
      {step : Nat} :
      Delivers start stream step []
  | quiet
      {step edge : Nat}
      {transfers : List Beat}
      (next : NextEdge start stream step edge)
      (notValid : (stream edge).txTvalid ≠ .one)
      (later : Delivers start stream (edge + 1) transfers) :
      Delivers start stream step transfers
  | transfer
      {step edge : Nat}
      {beat : Beat}
      {rest : List Beat}
      (next : NextEdge start stream step edge)
      (valid : (stream edge).txTvalid = .one)
      (isBeat : (stream edge).txBeat = beat)
      (later : Delivers start stream (edge + 1) rest) :
      Delivers start stream step (beat :: rest)

theorem NextEdge.unique
    {start : Logic4}
    {stream : Nat → UntilSignals}
    {step edge other : Nat}
    (isNext : NextEdge start stream step edge)
    (otherNext : NextEdge start stream step other) :
    edge = other := by
  rcases Nat.lt_trichotomy edge other with before | same | after
  · exact (otherNext.first edge isNext.later before isNext.isEdge).elim
  · exact same
  · exact (isNext.first other otherNext.later after otherNext.isEdge).elim

section

variable {start : Logic4}
variable {stream : Nat → UntilSignals}
variable {send : Tlp → Call User Unit}
variable {answer : Tlp}
variable {tag : BitVec 8}
variable {bus before : SimbusPcieTlp User}

/-- An edge at which the receiver is done at once. -/
theorem progress_posedge
    {fails escape : SimbusPcieTlp User → Prop}
    {post : Assertion (SimbusPcieTlp User) Unit}
    {step edge : Nat}
    {bus' : SimbusPcieTlp User}
    (clock : RunningClock start stream)
    (onTime : OnTime start stream step bus)
    (next : NextEdge start stream step edge)
    (receives : (pcieTlpRecvTlp send).start
      (recordTransfer (bus.sample (stream edge))) = .finish () bus')
    (reached : post () (edge + 1) bus') :
    (progress (untilReplies stream) fails escape).ok post step
      ((pcieTlpNextPosedge send).start bus) := by
  refine (progress (untilReplies stream) fails escape).bind
    (progress_waitPosedge clock onTime) ?_
  rintro _ _ _ ⟨edge', next', rfl, rfl⟩
  obtain rfl := next.unique next'
  rw [receives]
  exact .now (.finished reached)

/-- Some words have been put into the buffer. -/
def SimbusPcieTlp.cranked
    (bus : SimbusPcieTlp User)
    (buf : Nat → BitVec 32)
    (count : Nat) : SimbusPcieTlp User :=
  { bus with
    sTlpBuf := buf
    sTlpCnt := bus.sTlpCnt + count }

/-- A transfer of a packet that is being received. -/
theorem recvTlp_beat
    (send : Tlp → Call User Unit)
    (valid : bus.txTvalid = .one)
    (ready : bus.txTready = .one)
    (member : bus.txBeat ∈ answer.beats)
    (fits : bus.sTlpCnt + (assemble bus.txBeat).words.length ≤ maxTlp) :
    ∃ buf,
      (bus.cranked buf (assemble bus.txBeat).words.length).received =
        bus.received ++ (assemble bus.txBeat).words ∧
      (pcieTlpRecvTlp send).start bus =
        (if bus.txBeat.tlast = .one then completeRecvTlp send else pure ()).start
          (bus.cranked buf (assemble bus.txBeat).words.length) := by
  obtain ⟨buf, outcome, received⟩ := crankAll_received fits
  have whole := assemble_bytes_beats member
  refine ⟨buf, received, ?_⟩
  rw [pcieTlpRecvTlp, Program.start_bind, Program.start_getState,
    Behavior.finish_bind, if_pos ⟨valid, ready⟩]
  simp only [Program.start_bind, outcome, Behavior.finish_bind, check, whole,
    decide_true, ↓reduceIte]
  rfl

/-- A packet is being received, and some of its transfers are still to come. -/
structure Receiving
    (answer : Tlp)
    (tag : BitVec 8)
    (before : SimbusPcieTlp User)
    (rest : List Beat)
    (bus : SimbusPcieTlp User) : Prop where
  transfers : ∃ done, answer.beats = done ++ rest ∧
    bus.received = assembledWords done
  slots : bus.completions = before.completions
  free : bus.completions tag = none
  ready : bus.txTready = .one
  nextTag : bus.tlpNextTag = before.tlpNextTag
  queue : bus.outQueue = before.outQueue
  allSent : AllSent bus

/-- The packet is in the slot of its tag, and the receiver is ready for others. -/
structure Received
    (answer : Tlp)
    (tag : BitVec 8)
    (before : SimbusPcieTlp User)
    (bus : SimbusPcieTlp User) : Prop where
  slots : bus.completions =
    Function.update before.completions tag (some answer.words)
  empty : bus.sTlpCnt = 0
  ready : bus.txTready = .one
  nextTag : bus.tlpNextTag = before.tlpNextTag
  queue : bus.outQueue = before.outQueue
  allSent : AllSent bus

theorem Received.completion
    (received : Received answer tag before bus) :
    bus.completions tag = some answer.words := by
  rw [received.slots, Function.update_self]

/-- The receiver takes the packet as a completion with a certain tag. -/
def IsCompletion (answer : Tlp) (tag : BitVec 8) : Prop :=
  ∀ (User : Type) (send : Tlp → Call User Unit) (bus : SimbusPcieTlp User),
    bus.received = answer.words → bus.completions tag = none →
    (completeRecvTlp send).start bus =
      .finish ()
        { bus with
          completions :=
            Function.update bus.completions tag (some answer.words)
          sTlpCnt := 0 }

/-- One transfer is received, and with the last one the packet. -/
theorem Receiving.transfer
    {beat : Beat}
    {rest : List Beat}
    (receiving : Receiving answer tag before (beat :: rest) bus)
    (isCompletion : IsCompletion answer tag)
    (fits : answer.words.length ≤ maxTlp)
    (send : Tlp → Call User Unit)
    (valid : bus.txTvalid = .one)
    (isBeat : bus.txBeat = beat) :
    ∃ bus', (pcieTlpRecvTlp send).start bus = .finish () bus' ∧
      bus'.userClk = bus.userClk ∧
      if rest = [] then
        Received answer tag before bus'
      else
        Receiving answer tag before rest bus' := by
  obtain ⟨⟨done, shape, received⟩, slots, free, ready, nextTag, queue,
    allSent⟩ := receiving
  subst isBeat
  have member : bus.txBeat ∈ answer.beats := by
    rw [shape]
    exact List.mem_append_right _ (List.mem_cons_self ..)
  have words : answer.words =
      assembledWords done ++ ((assemble bus.txBeat).words ++
        assembledWords rest) := by
    have all : assembledWords answer.beats = answer.words :=
      assembledWords_beats answer.words
    rw [← all, shape, assembledWords, List.flatMap_append,
      List.flatMap_cons]
    rfl
  have room : bus.sTlpCnt + (assemble bus.txBeat).words.length ≤ maxTlp := by
    rw [words, List.length_append, List.length_append] at fits
    rw [received_count received]
    omega
  obtain ⟨buf, received', outcome⟩ := recvTlp_beat send valid ready member room
  obtain ⟨front, last, isFront, isLast, notLast⟩ := beats_tlast answer.nonempty
  change answer.beats = front ++ [last] at isFront
  rw [shape] at isFront
  rw [received] at received'
  by_cases ends : rest = []
  · subst ends
    obtain ⟨_, same⟩ := List.append_inj' isFront rfl
    obtain rfl := List.singleton_inj.mp same
    have complete : (bus.cranked buf (assemble bus.txBeat).words.length).received
        = answer.words := by
      have none : assembledWords [] = [] := rfl
      rw [received', words, none, List.append_nil]
    rw [if_pos isLast, isCompletion User send _ complete free] at outcome
    refine ⟨_, outcome, rfl, ?_, rfl, ready, nextTag, queue,
      allSent.of_same rfl rfl⟩
    exact congrArg (Function.update · tag (some answer.words)) slots
  · -- The last transfer is another one.
    obtain ⟨middle, other, rfl⟩ :=
      (List.eq_nil_or_concat rest).resolve_left ends
    have inFront : bus.txBeat ∈ front := by
      have split : (done ++ bus.txBeat :: middle) ++ [other] =
          front ++ [last] := by
        rw [← isFront, List.append_assoc, List.cons_append,
          List.concat_eq_append]
      obtain ⟨same, _⟩ := List.append_inj' split rfl
      rw [← same]
      exact List.mem_append_right _ (List.mem_cons_self ..)
    have more : ¬ bus.txBeat.tlast = .one := by
      rw [notLast _ inFront]
      intro isOne
      cases isOne
    rw [if_neg more] at outcome
    refine ⟨_, outcome, rfl, ?_⟩
    rw [if_neg ends]
    refine ⟨⟨done ++ [bus.txBeat], ?_, ?_⟩, slots, free, ready, nextTag, queue,
      allSent.of_same rfl rfl⟩
    · rw [shape, List.append_assoc, List.singleton_append]
    · rw [received', assembledWords, assembledWords, List.flatMap_append,
        List.flatMap_singleton]

/-- What holds between the transfers: the packet is complete, or it is not. -/
def Awaiting
    (answer : Tlp)
    (tag : BitVec 8)
    (before : SimbusPcieTlp User)
    (rest : List Beat)
    (bus : SimbusPcieTlp User) : Prop :=
  if rest = [] then
    Received answer tag before bus
  else
    Receiving answer tag before rest bus

/-- At an edge before the receiver has been called nothing is sent. -/
theorem Awaiting.edge
    {rest : List Beat}
    (awaiting : Awaiting answer tag before rest bus)
    (signals : UntilSignals) :
    recordTransfer (bus.sample signals) = bus.sample signals ∧
      Awaiting answer tag before rest (bus.sample signals) := by
  unfold Awaiting at awaiting ⊢
  split
  · rename_i ends
    rw [if_pos ends] at awaiting
    obtain ⟨same, allSent⟩ := awaiting.allSent.edge signals
    exact ⟨same, awaiting.slots, awaiting.empty, awaiting.ready,
      awaiting.nextTag, awaiting.queue, allSent⟩
  · rename_i more
    rw [if_neg more] at awaiting
    obtain ⟨same, allSent⟩ := awaiting.allSent.edge signals
    exact ⟨same, awaiting.transfers, awaiting.slots, awaiting.free,
      awaiting.ready, awaiting.nextTag, awaiting.queue, allSent⟩

/-- The wait ends with the packet in its slot. -/
theorem progress_awaitCompletion
    {fails escape : SimbusPcieTlp User → Prop}
    {step : Nat}
    {rest : List Beat}
    (clock : RunningClock start stream)
    (isCompletion : IsCompletion answer tag)
    (fits : answer.words.length ≤ maxTlp)
    (stack : Nat)
    (delivers : Delivers start stream step rest)
    (onTime : OnTime start stream step bus)
    (awaiting : Awaiting answer tag before rest bus) :
    (progress (untilReplies stream) fails escape).ok
      (fun _ _ bus' => Received answer tag before bus')
      step ((awaitCompletion stack tag).start bus) := by
  have ends {step : Nat} {bus : SimbusPcieTlp User}
      (received : Received answer tag before bus) :
      (progress (untilReplies stream) fails escape).ok
        (fun _ _ bus' => Received answer tag before bus')
        step ((awaitCompletion stack tag).start bus) := by
    rw [awaitCompletion, Program.start_whileDo_false (by
      rw [received.completion]
      rfl)]
    exact .now (.finished received)
  induction delivers generalizing bus with
  | done =>
      exact ends awaiting
  | @quiet step edge transfers next notValid later inductionHypothesis =>
      obtain ⟨same, still⟩ := awaiting.edge (stream edge)
      by_cases complete : transfers = []
      · subst complete
        exact ends awaiting
      · unfold Awaiting at awaiting
        rw [if_neg complete] at awaiting
        have idle : (recordTransfer (bus.sample (stream edge))).txTvalid ≠
            .one := by
          rw [same]
          exact notValid
        refine progress_whileStep (decide_eq_true awaiting.free)
          (progress_posedge clock onTime next (recvTlp_idle idle) ⟨?_, ?_⟩)
        · exact Nat.lt_succ_of_le next.later
        · rw [same]
          exact inductionHypothesis rfl still
  | @transfer step edge beat rest next valid isBeat later
      inductionHypothesis =>
      obtain ⟨same, still⟩ := awaiting.edge (stream edge)
      have goesOn : bus.completions tag = none := by
        unfold Awaiting at awaiting
        rw [if_neg (List.cons_ne_nil _ _)] at awaiting
        exact awaiting.free
      unfold Awaiting at still
      rw [if_neg (List.cons_ne_nil _ _)] at still
      obtain ⟨bus', outcome, clk, next'⟩ := still.transfer isCompletion fits
        (pcieTlpSendTlp stack) valid isBeat
      rw [← same] at outcome
      refine progress_whileStep (decide_eq_true goesOn)
        (progress_posedge clock onTime next outcome ⟨?_, ?_⟩)
      · exact Nat.lt_succ_of_le next.later
      · exact inductionHypothesis clk next'

end

/-! ## Both ways -/

/-- The completion of a read is taken as one with the tag of the read. -/
theorem isCompletion_answer
    (completer requestId : BitVec 16)
    (tag : BitVec 8)
    (addr : BitVec 64)
    {ndata : Nat}
    (fits : ndata ≤ 0x3ff)
    (data : Nat → BitVec 32) :
    IsCompletion (answerTlp completer requestId tag addr ndata data) tag :=
  fun _ send _ received free =>
    completeRecvTlp_completion send fits received free

theorem answer_length
    (completer requestId : BitVec 16)
    (tag : BitVec 8)
    (addr : BitVec 64)
    {ndata : Nat}
    (fits : ndata ≤ 0x3ff)
    (data : Nat → BitVec 32) :
    (answerTlp completer requestId tag addr ndata data).words.length ≤
      maxTlp := by
  simp only [answerTlp, completionTlp, List.length_cons, List.length_map,
    List.length_range, maxTlp]
  omega

/-- A client that can start an access. -/
structure Idle (bus : SimbusPcieTlp User) : Prop where
  allSent : AllSent bus
  empty : bus.sTlpCnt = 0
  ready : bus.txTready = .one
  free : bus.completions bus.tlpNextTag = none

/--
A write is sent as one packet, and where that packet is received the callback
is called once, with the address, the data and the byte enables of the packet.
-/
def WriteArrives
    (bus : SimbusPcieTlp User)
    (stack : Nat)
    (addr : BitVec 64)
    (data : List (BitVec 32))
    (off len : Nat) : Prop :=
  let tlp := writeTlp bus.requestId addr data off len
  let enables := writeByteEnables data.length off len
  (simbusPcieTlpWrite stack addr data off len).start bus =
      (callSendTlp (pcieTlpSendTlp stack) tlp).start bus ∧
    ∀ (Other : Type) (send : Tlp → Call Other Unit)
      (receiver : SimbusPcieTlp Other) (writeFun : WriteFun Other),
      receiver.received = tlp.words → receiver.writeFun = some writeFun →
      ∃ buf, (completeRecvTlp send).start receiver =
        ((runScript send
          (writeFun addr data (firstByteEnables enables)
            (lastByteEnables enables))).start
          { receiver with sTlpBuf := buf }).bind fun _ receiver' =>
            .finish () receiver'.emptied

/-- Where a read request is received, it is answered with the callback's data. -/
def ReadIsAnswered
    (requestId : BitVec 16)
    (tag : BitVec 8)
    (addr : BitVec 64)
    (ndata : Nat) : Prop :=
  ∀ (Other : Type) (send : Tlp → Call Other Unit)
    (receiver : SimbusPcieTlp Other) (readFun : ReadFun Other),
    receiver.received = (readTlp requestId tag addr ndata).words →
    receiver.readFun = some readFun →
    (completeRecvTlp send).start receiver =
      ((runScript send
        (readFun addr ndata (firstByteEnables (readByteEnables ndata))
          (lastByteEnables (readByteEnables ndata)))).start receiver).bind
        fun data receiver' =>
          (callSendTlp send
            (answerTlp receiver.requestId requestId tag addr ndata
              data)).start receiver'.emptied

/--
A read sends its request, and once the answer has been received it returns the
data of the answer, whose slot is free again.  If the slot of the next tag is
free too, the client can start another access.
-/
def ReadReturns
    (bus : SimbusPcieTlp User)
    (stack : Nat)
    (addr : BitVec 64)
    (ndata : Nat) : Prop :=
  ∀ stream, ReadyStream bus.userClk stream →
    (∀ step, (stream step).txTvalid ≠ .one) →
    ∃ length, ∀ completer data replies,
      let clk := clockBefore bus.userClk stream length
      let answer :=
        answerTlp completer bus.requestId bus.tlpNextTag addr ndata data
      RunningClock clk replies → Delivers clk replies 0 answer.beats →
      completionStatus (answer.words.getD 1 0) = 0 ∧
        ∃ count bus',
          ((simbusPcieTlpRead stack addr ndata 0 (ndata * 4)).start bus).run
              (stretch (untilReplies stream) 0 length ++
                stretch (untilReplies replies) 0 count) =
            .finished ((List.range ndata).map data) bus' [] ∧
          bus'.completions bus.tlpNextTag = none ∧
          bus'.enqueued = bus.enqueued ++
            [readTlp bus.requestId bus.tlpNextTag addr ndata] ∧
          bus'.tlpOutList = none ∧ bus'.fault = none ∧
          (bus.completions bus'.tlpNextTag = none → Idle bus')

section

variable {bus : SimbusPcieTlp User}

/-- What a read makes of a completion that it has waited for. -/
theorem takeCompletion_answer
    {completer requestId : BitVec 16}
    {tag : BitVec 8}
    {addr : BitVec 64}
    {ndata : Nat}
    {data : Nat → BitVec 32}
    {before : SimbusPcieTlp User}
    (fits : ndata ≤ 0x3ff)
    (received : Received (answerTlp completer requestId tag addr ndata data)
      tag before bus) :
    (do
      let ctlp ← takeCompletion tag
      readResult ndata ctlp : Call User (List (BitVec 32))).start bus =
      .finish ((List.range ndata).map data)
        { bus with completions := Function.update before.completions tag none } := by
  have freed : Function.update bus.completions tag none =
      Function.update before.completions tag none := by
    rw [received.slots, Function.update_idem]
  simp [takeCompletion, received.completion, readResult_answer fits, freed]

theorem readReturns
    {ndata : Nat}
    (idle : Idle bus)
    (fits : RequestFits ndata 0 (ndata * 4))
    (stack : Nat)
    (addr : BitVec 64) :
    ReadReturns bus (stack + 2) addr ndata := by
  intro stream endpoint silent
  have allSent : AllSent bus.choseTag :=
    idle.allSent.of_same rfl rfl
  obtain ⟨length, sent, ran, allSent', sameInbox, onTime⟩ :=
    sendTlp_silent allSent endpoint silent stack
      (readTlp bus.requestId bus.tlpNextTag addr ndata)
  refine ⟨length, ?_⟩
  intro completer data replies clk answer clock delivers
  refine ⟨completionStatus_success completer _, ?_⟩
  have awaiting : Awaiting answer bus.tlpNextTag sent answer.beats sent := by
    have nonempty : answer.beats ≠ [] := by
      intro none
      exact answer.nonempty (beats_eq_nil_iff.mp none)
    rw [Awaiting, if_neg nonempty]
    refine ⟨⟨[], rfl, ?_⟩, rfl, ?_, ?_, rfl, rfl, allSent'⟩
    · have empty : sent.sTlpCnt = 0 :=
        (congrArg Inbox.sTlpCnt sameInbox).trans idle.empty
      rw [SimbusPcieTlp.received, empty]
      rfl
    · exact (congrFun (congrArg Inbox.completions sameInbox) _).trans
        idle.free
    · exact (congrArg Inbox.txTready sameInbox).trans idle.ready
  have waits : (progress (untilReplies replies)
      (fun _ => False) fun _ => False).ok _ 0 _ :=
    progress_awaitCompletion clock
      (isCompletion_answer completer bus.requestId bus.tlpNextTag addr
        fits.le data)
      (answer_length completer bus.requestId bus.tlpNextTag addr fits.le
        data)
      (stack + 2) delivers onTime awaiting
  obtain ⟨count, _, bus₁, waited, received⟩ := waits.ends
  have took := takeCompletion_answer fits.le received
  have slots : sent.completions = bus.completions :=
    congrArg Inbox.completions sameInbox
  have nextTag : bus₁.tlpNextTag = bus.choseTag.tlpNextTag :=
    received.nextTag.trans (congrArg Inbox.tlpNextTag sameInbox)
  let after : SimbusPcieTlp User :=
    { bus₁ with
      completions := Function.update sent.completions bus.tlpNextTag none }
  have idle' (free : bus.completions after.tlpNextTag = none) : Idle after :=
    { allSent := received.allSent.of_same rfl rfl
      empty := received.empty
      ready := received.ready
      free := by
        change Function.update sent.completions _ none _ = none
        rw [slots, Function.update_apply]
        split
        · rfl
        · exact free }
  refine ⟨count, after, ?_, Function.update_self .., ?_, ?_,
    received.allSent.faultless, idle'⟩
  · rw [simbusPcieTlpRead_sends fits, bind_finished ran, Program.start_bind]
    have rest := bind_finished waited
      (fun _ => (do
        let ctlp ← takeCompletion bus.tlpNextTag
        readResult ndata ctlp :
          Call User (List (BitVec 32))).start) []
    rw [List.append_nil] at rest
    rw [rest, took]
    rfl
  · exact (congrArg OutQueue.enqueued received.queue).trans
      (congrArg Inbox.enqueued sameInbox)
  · exact received.allSent.tlpOutList

/--
For every address: a write of 1 to 1023 words reaches the callback where its
packet is received, a read of as many words is answered there with the words
of the callback, and the read returns these words from the slot of its tag.
-/
theorem writeRead_roundTrip
    (idle : Idle bus)
    (stack : Nat)
    (addr : BitVec 64) :
    (∀ data off len, RequestFits data.length off len →
      WriteArrives bus (stack + 2) addr data off len) ∧
    ∀ ndata, 1 ≤ ndata → ndata ≤ 1023 →
      ReadIsAnswered bus.requestId bus.tlpNextTag addr ndata ∧
        ReadReturns bus (stack + 2) addr ndata := by
  constructor
  · intro data off len fits
    exact ⟨simbusPcieTlpWrite_sends fits _ addr,
      fun _ send _ _ received callback =>
        completeRecvTlp_write send fits.le received callback⟩
  · intro ndata one_le le
    refine ⟨fun _ send _ _ received callback =>
      completeRecvTlp_read send le received callback, ?_⟩
    exact readReturns idle ⟨one_le, le, Nat.zero_le _, by omega⟩ stack addr

/-- A fresh client reads two words from beyond 32 bits. -/
theorem freshClient_reads :
    ReadReturns (SimbusPcieTlp.init () none none) 2 0x100000008 2 :=
  ((writeRead_roundTrip
    ⟨init_allSent () none none, rfl, rfl, rfl⟩ 0 0x100000008).2 2
      (by decide) (by decide)).2

end

end Simbus.Pcie
