import Simbus.Pcie.Transmit

/-!
# Calls one after the other

Any sequence of calls of `__pcie_tlp_send_tlp`, with edges of the clock between
them: the packets that the callbacks and the completer send meanwhile go
through the same list, and all of them are sent whole and in their order.
-/

namespace Simbus.Pcie

open FourValued Clocked

variable {User : Type}

/-! ## Sessions -/

/-- The calls that a user makes, which may depend on the state. -/
inductive Session (User : Type) where
  | done
  | look (next : SimbusPcieTlp User → Session User)
  | writeHandle (callback : Option (WriteFun User)) (next : Session User)
  | readHandle (callback : Option (ReadFun User)) (next : Session User)
  | posedge (next : Session User)
  | send (tlp : Tlp) (next : Session User)

/-- `simbus_pcie_tlp_write_handle`. -/
def simbusPcieTlpWriteHandle
    (callback : Option (WriteFun User)) : Call User Unit :=
  Program.modifyState fun bus => { bus with writeFun := callback }

/-- `simbus_pcie_tlp_read_handle`. -/
def simbusPcieTlpReadHandle
    (callback : Option (ReadFun User)) : Call User Unit :=
  Program.modifyState fun bus => { bus with readFun := callback }

/-- The calls of a session, with room for a number of nested calls. -/
def Session.run (stack : Nat) : Session User → Call User Unit
  | .done => pure ()
  | .look next => do
      let bus ← Program.getState
      (next bus).run stack
  | .writeHandle callback next => do
      simbusPcieTlpWriteHandle callback
      next.run stack
  | .readHandle callback next => do
      simbusPcieTlpReadHandle callback
      next.run stack
  | .posedge next => do
      pcieTlpNextPosedge (pcieTlpSendTlp stack)
      next.run stack
  | .send tlp next => do
      callSendTlp (pcieTlpSendTlp stack) tlp
      next.run stack

/-! ## What has been sent -/

/--
The packets that have been sent, the list with the others, and the transfers
of its first packet that have taken place.
-/
structure Transmission
    (bus : SimbusPcieTlp User)
    (sent : List Tlp)
    (items : List (Nat × Tlp))
    (done : List Beat) : Prop where
  queue : bus.outQueue.Holds items
  enqueued : bus.enqueued = sent ++ items.map Prod.snd
  accepted : bus.accepted = sent.flatMap Tlp.beats ++ done

/-- The transfers of the first packet of the list. -/
def headBeats : List (Nat × Tlp) → List Beat
  | [] => []
  | (_, tlp) :: _ => tlp.beats

/-- What is driven: nothing, or the next transfer of the first packet. -/
def Drives
    (bus : SimbusPcieTlp User)
    (items : List (Nat × Tlp))
    (done : List Beat) : Prop :=
  items = [] ∧ done = [] ∧ bus.rxTvalid = .zero ∨
    items ≠ [] ∧ bus.rxTvalid = .one ∧
      done ++ [bus.rxBeat] <+: headBeats items

/-- The client waits, and has sent a number of packets at least. -/
def Underway (count : Nat) (bus : SimbusPcieTlp User) : Prop :=
  ∃ sent items done, Transmission bus sent items done ∧
    Drives bus items done ∧ bus.fault = none ∧ count ≤ sent.length

/--
The client has stopped.  Without a fault it goes round a loop on a clock that
is neither 0 nor 1.
-/
def Stopped (bus : SimbusPcieTlp User) : Prop :=
  (∃ sent items done, Transmission bus sent items done ∧
    done <+: headBeats items) ∧
  ∀ fault, bus.fault = some fault → fault.IsReceive

/-- No packet is under way, and those in the list are still to be sent. -/
structure Between
    (sent : List Tlp)
    (items : List (Nat × Tlp))
    (bus : SimbusPcieTlp User) : Prop where
  transmission : Transmission bus sent items []
  undriven : bus.rxTvalid = .zero
  faultless : bus.fault = none

/-- Every packet has been sent. -/
def AllSent (bus : SimbusPcieTlp User) : Prop :=
  Between bus.enqueued [] bus

theorem Between.allSent
    {sent : List Tlp}
    {bus : SimbusPcieTlp User}
    (between : Between sent [] bus) :
    AllSent bus := by
  have all := between.transmission.enqueued
  rw [List.map_nil, List.append_nil] at all
  rw [AllSent, all]
  exact between

theorem AllSent.tlpOutList
    {bus : SimbusPcieTlp User}
    (idle : AllSent bus) :
    bus.tlpOutList = none :=
  idle.transmission.queue.circle.last_eq

/-- All transfers are those of the packets, one packet after the other. -/
theorem AllSent.accepted
    {bus : SimbusPcieTlp User}
    (idle : AllSent bus) :
    bus.accepted = bus.enqueued.flatMap Tlp.beats := by
  rw [idle.transmission.accepted, List.append_nil]

/-- What does not concern the sender leaves everything sent. -/
theorem AllSent.of_same
    {bus bus' : SimbusPcieTlp User}
    (idle : AllSent bus)
    (sameQueue : bus'.outQueue = bus.outQueue)
    (sameLines : bus'.lines = bus.lines) :
    AllSent bus' := by
  have enqueued : bus'.enqueued = bus.enqueued :=
    congrArg OutQueue.enqueued sameQueue
  have accepted : bus'.accepted = bus.accepted :=
    congrArg Lines.accepted sameLines
  have undriven : bus'.rxTvalid = bus.rxTvalid :=
    congrArg Lines.rxTvalid sameLines
  have fault : bus'.fault = bus.fault :=
    congrArg Lines.fault sameLines
  have between : Between bus.enqueued [] bus' :=
    { transmission :=
        { queue := sameQueue ▸ idle.transmission.queue
          enqueued := enqueued.trans idle.transmission.enqueued
          accepted := accepted.trans idle.transmission.accepted }
      undriven := undriven.trans idle.undriven
      faultless := fault.trans idle.faultless }
  exact between.allSent

theorem AllSent.underway
    {bus : SimbusPcieTlp User}
    (idle : AllSent bus)
    (count : Nat)
    (enough : count ≤ bus.enqueued.length) :
    Underway count bus :=
  ⟨_, [], [], idle.transmission, .inl ⟨rfl, rfl, idle.undriven⟩,
    idle.faultless, enough⟩

theorem Between.stop
    {sent : List Tlp}
    {items : List (Nat × Tlp)}
    {bus : SimbusPcieTlp User}
    (between : Between sent items bus) :
    Stopped bus := by
  refine ⟨⟨sent, items, [], between.transmission, List.nil_prefix⟩, ?_⟩
  intro fault failed
  rw [between.faultless] at failed
  cases failed
/-! ## One packet of the list -/

section

variable {bus bus' : SimbusPcieTlp User}
variable {sent : List Tlp}
variable {cell : Nat}
variable {tlp : Tlp}
variable {rest : List (Nat × Tlp)}

/-- The list while its first packet is sent up to some words. -/
theorem Between.sending
    {left : List (BitVec 32)}
    (between : Between sent ((cell, tlp) :: rest) bus)
    (sentUpTo : SentUpTo bus tlp.words left bus') :
    bus'.fault = none ∧ ∃ added done,
      Transmission bus' sent ((cell, tlp) :: (rest ++ added)) done ∧
        tlp.beats = done ++ beats left := by
  obtain ⟨done, shape, accepted⟩ := sentUpTo.accepted
  obtain ⟨added, enqueued, extended⟩ := sentUpTo.queue
  refine ⟨sentUpTo.fault.trans between.faultless, added, done, ?_, shape⟩
  constructor
  · exact extended _ (List.cons_ne_nil _ _) between.transmission.queue
  · have before := between.transmission.enqueued
    change bus'.enqueued = bus.enqueued ++ _ at enqueued
    rw [enqueued, before, List.append_assoc, ← List.map_append]
    rfl
  · rw [accepted, between.transmission.accepted, List.append_nil]

/-- While a packet is on its way its next transfer is driven. -/
theorem Between.underway
    {first : BitVec 32}
    {others : List (BitVec 32)}
    {count : Nat}
    (between : Between sent ((cell, tlp) :: rest) bus)
    (enough : count ≤ sent.length)
    (sentUpTo : SentUpTo bus tlp.words (first :: others) bus')
    (signals : UntilSignals) :
    Underway count ((bus'.drive (first :: others)).sample signals) := by
  obtain ⟨faultless, added, done, transmission, shape⟩ :=
    between.sending sentUpTo
  refine ⟨sent, _, done, ⟨transmission.queue, transmission.enqueued,
    transmission.accepted⟩, .inr ⟨List.cons_ne_nil _ _, rfl, ?_⟩, faultless,
    enough⟩
  refine ⟨beats (others.drop 1), ?_⟩
  rw [headBeats, shape, beats_cons, List.append_assoc,
    List.singleton_append]
  rfl

theorem Between.stopped
    {left : List (BitVec 32)}
    (between : Between sent ((cell, tlp) :: rest) bus)
    (sentUpTo : SentUpTo bus tlp.words left bus') :
    Stopped bus' := by
  obtain ⟨faultless, added, done, transmission, shape⟩ :=
    between.sending sentUpTo
  refine ⟨⟨sent, _, done, transmission, beats left, shape.symm⟩, ?_⟩
  intro fault failed
  rw [faultless] at failed
  cases failed

/-- The receiver can stop the client in the middle of a packet. -/
theorem Between.stopped_receive
    {first : BitVec 32}
    {others : List (BitVec 32)}
    {bus'' : SimbusPcieTlp User}
    {signals : UntilSignals}
    {fault : Fault}
    (between : Between sent ((cell, tlp) :: rest) bus)
    (sentUpTo : SentUpTo bus tlp.words (first :: others) bus')
    (transferred : Transferred bus' (first :: others) signals bus'')
    (receives : fault.IsReceive) :
    Stopped { bus'' with fault := some fault } := by
  obtain ⟨done, isPrefix, accepted⟩ := sentUpTo.transferred transferred
  obtain ⟨added, enqueued, extended⟩ :=
    sentUpTo.queue.trans transferred.queue
  have before := between.transmission
  refine ⟨⟨sent, (cell, tlp) :: (rest ++ added), done, ⟨?_, ?_, ?_⟩,
    isPrefix⟩, ?_⟩
  · exact extended _ (List.cons_ne_nil _ _) before.queue
  · change bus''.enqueued = _
    change bus''.enqueued = bus.enqueued ++ _ at enqueued
    rw [enqueued, before.enqueued, List.append_assoc, ← List.map_append]
    rfl
  · change bus''.accepted = _
    rw [accepted, before.accepted, List.append_nil]
  · rintro _ ⟨⟩
    exact receives

theorem sendingStates
    (between : Between sent ((cell, tlp) :: rest) bus)
    {count : Nat}
    (enough : count ≤ sent.length) :
    SendingStates bus tlp.words (Underway count) Stopped where
  waits := fun _ _ _ signals sentUpTo =>
    between.underway enough sentUpTo signals
  spins := by
    intro first others bus' signals sentUpTo
    obtain ⟨sent, items, done, transmission, drives, faultless, _⟩ :=
      between.underway enough sentUpTo signals
    refine ⟨⟨sent, items, done, transmission, ?_⟩, ?_⟩
    · rcases drives with ⟨_, rfl, _⟩ | ⟨_, _, next⟩
      · exact List.nil_prefix
      · exact (List.prefix_append _ _).trans next
    · intro fault failed
      rw [faultless] at failed
      cases failed
  between := fun _ _ sentUpTo => between.stopped sentUpTo
  fails := fun _ _ _ _ _ _ sentUpTo transferred receives =>
    between.stopped_receive sentUpTo transferred receives

/-- A packet whose transfers have all taken place is taken off the list. -/
theorem unlink_sent
    (transmission : Transmission bus sent ((cell, tlp) :: rest) tlp.beats) :
    ∃ bus', (unlink cell).start bus = .finish () bus' ∧
      Transmission bus' (sent ++ [tlp]) rest [] ∧ bus'.lines = bus.lines := by
  have circle := transmission.queue.circle
  have enqueued : bus.enqueued =
      (sent ++ [tlp]) ++ rest.map Prod.snd := by
    rw [transmission.enqueued, List.append_assoc]
    rfl
  have accepted : bus.accepted =
      (sent ++ [tlp]).flatMap Tlp.beats ++ [] := by
    rw [transmission.accepted, List.flatMap_append, List.append_nil,
      List.flatMap_singleton]
  have allocated : ∀ other ∈ rest.map Prod.fst,
      other < bus.outQueue.cellCount := fun other member =>
    transmission.queue.allocated other (List.mem_cons_of_mem _ member)
  cases isList : bus.tlpOutList with
  | none =>
      have noList : bus.outQueue.tlpOutList = none := isList
      rw [noList] at circle
      cases circle.eq_nil
  | some last =>
      have someList : bus.outQueue.tlpOutList = some last := isList
      rw [someList] at circle
      obtain ⟨front, lastTlp, shape, _, isLast⟩ := circle.last_cell
      obtain ⟨next, isFirst, _⟩ := circle.first_cell
      change bus.cells last = _ at isLast
      change bus.cells cell = _ at isFirst
      by_cases only : last = cell
      · subst only
        obtain rfl := circle.pop_only
        refine ⟨{ bus with
          tlpOutList := none
          cells := Function.update bus.cells last none }, ?_, ⟨⟨?_, ?_⟩,
            enqueued, accepted⟩, rfl⟩
        · simp [unlink, isList]
        · exact Ring.circle_nil
        · exact allocated
      · have apart : cell ≠ last := fun same => only same.symm
        refine ⟨{ bus with
          cells := Function.update
            (Function.update bus.cells last
              (some { data := lastTlp, next := next }))
            cell none }, ?_, ⟨⟨?_, allocated⟩, enqueued, accepted⟩, rfl⟩
        · simp [unlink, isList, only, outList, readCell, isLast, isFirst,
            check, setNext]
        · change Ring.Circle _ bus.tlpOutList rest
          rw [isList]
          exact circle.pop only isLast isFirst

/-- One turn of the drain loop, in any logic that can send a packet. -/
theorem drainOne_ok
    {logic : Logic (SimbusPcieTlp User) Reply}
    {send : Tlp → Call User Unit}
    {step : Nat}
    (timing : Nat → Logic4 → Prop)
    (between : Between sent ((cell, tlp) :: rest) bus)
    (sends : logic.ok
      (fun _ step' bus' => SentUpTo bus tlp.words [] bus' ∧
        timing step' bus'.userClk)
      step ((doSendTlpRaw send tlp.words).start bus)) :
    logic.ok
      (fun _ step' bus' => (∃ items, Between (sent ++ [tlp]) items bus') ∧
        timing step' bus'.userClk)
      step ((drainOne send).start bus) := by
  have unrolled : (drainOne send).start bus =
      ((doSendTlpRaw send tlp.words).start bus).bind fun _ =>
        (unlink cell).start := by
    have circle := between.transmission.queue.circle
    cases isList : bus.tlpOutList with
    | none =>
        have noList : bus.outQueue.tlpOutList = none := isList
        rw [noList] at circle
        cases circle.eq_nil
    | some last =>
        have someList : bus.outQueue.tlpOutList = some last := isList
        rw [someList] at circle
        obtain ⟨_, lastTlp, _, _, isLast⟩ := circle.last_cell
        obtain ⟨next, isFirst, _⟩ := circle.first_cell
        change bus.cells last = _ at isLast
        change bus.cells cell = _ at isFirst
        simp [drainOne, outList, isList, readCell, isLast, isFirst]
  rw [unrolled]
  refine logic.bind sends ?_
  rintro _ step' bus' ⟨sentUpTo, onTime⟩
  obtain ⟨faultless, added, done, transmission, shape⟩ :=
    between.sending sentUpTo
  rw [beats, List.append_nil] at shape
  rw [← shape] at transmission
  obtain ⟨bus'', outcome, transmission', sameLines⟩ :=
    unlink_sent transmission
  rw [outcome]
  refine logic.finish ⟨⟨rest ++ added, transmission', ?_, ?_⟩, ?_⟩
  · exact (congrArg Lines.rxTvalid sameLines).trans (sentUpTo.undriven rfl)
  · exact (congrArg Lines.fault sameLines).trans faultless
  · have sameClk : bus''.userClk = bus'.userClk :=
      congrArg Lines.userClk sameLines
    rw [sameClk]
    exact onTime

end

/-! ## The drain loop -/

/-- The drain loop goes on as long as there is a packet in the list. -/
theorem Between.items_cases
    {bus : SimbusPcieTlp User}
    {sent : List Tlp}
    {items : List (Nat × Tlp)}
    (between : Between sent items bus) :
    items = [] ∧ bus.tlpOutList = none ∨
      ∃ cell tlp rest, items = (cell, tlp) :: rest ∧
        bus.tlpOutList.isSome = true := by
  have circle := between.transmission.queue.circle
  change Ring.Circle bus.cells bus.tlpOutList items at circle
  cases isList : bus.tlpOutList with
  | none =>
      rw [isList] at circle
      exact .inl ⟨circle.eq_nil, rfl⟩
  | some last =>
      rw [isList] at circle
      cases items with
      | nil =>
          exact (circle.ne_nil rfl).elim
      | cons item rest =>
          exact .inr ⟨item.1, item.2, rest, rfl, rfl⟩

/-- Between two turns a number of packets has been sent at least. -/
def BetweenTurns (count : Nat) (bus : SimbusPcieTlp User) : Prop :=
  ∃ sent items, Between sent items bus ∧ count ≤ sent.length

section

variable {send : Tlp → Call User Unit}
variable {count : Nat}

theorem Between.busy
    {bus : SimbusPcieTlp User}
    {sent : List Tlp}
    {item : Nat × Tlp}
    {rest : List (Nat × Tlp)}
    (between : Between sent (item :: rest) bus) :
    Busy bus :=
  ⟨_, List.cons_ne_nil _ _, between.transmission.queue⟩

theorem safety_drainOne
    (nestedSend : ∀ tlp, Nested (callSendTlp send tlp)) :
    (safety (Underway count) Stopped).Triple
      (fun _ bus => BetweenTurns count bus ∧ bus.tlpOutList.isSome = true)
      (drainOne send) fun _ _ => BetweenTurns count := by
  rintro step bus ⟨⟨sent, items, between, enough⟩, isSome⟩
  rcases between.items_cases with ⟨rfl, isNone⟩ | ⟨cell, tlp, rest, rfl, _⟩
  · rw [isNone] at isSome
    cases isSome
  · have sends := safety_doSendTlpRaw nestedSend between.busy tlp.nonempty
      (sendingStates between enough) step
    refine Logic.mono (drainOne_ok (fun _ _ => True) between
      (Logic.mono sends fun _ _ _ sentUpTo => ⟨sentUpTo, trivial⟩)) ?_
    rintro _ _ bus' ⟨⟨items, between'⟩, _⟩
    refine ⟨_, items, between', ?_⟩
    rw [List.length_append]
    exact Nat.le_add_right_of_le enough

/-- The client has failed an assertion about what the endpoint sends. -/
def ReceiverFailed (bus : SimbusPcieTlp User) : Prop :=
  ∃ fault, bus.fault = some fault ∧ fault.IsReceive

variable {start : Logic4}
variable {stream : Nat → UntilSignals}

/-- The clock is as the stream says. -/
def OnTime
    (start : Logic4)
    (stream : Nat → UntilSignals)
    (step : Nat)
    (bus : SimbusPcieTlp User) : Prop :=
  bus.userClk = clockBefore start stream step

/-- The loop has some packets to send until it has sent enough of them. -/
structure DrainTurn
    (start : Logic4)
    (stream : Nat → UntilSignals)
    (count : Nat)
    (size step : Nat)
    (bus : SimbusPcieTlp User) : Prop where
  turns : ∃ sent items, Between sent items bus ∧ size = count - sent.length
  onTime : OnTime start stream step bus

/--
If the receiver is ready again and again, the drain loop gets to any number of
packets, or to the end of the list.
-/
theorem progress_drain
    (endpoint : ReadyStream start stream)
    (nestedSend : ∀ tlp, Nested (callSendTlp send tlp))
    (count : Nat) :
    (progress (untilReplies stream) ReceiverFailed (Underway count)).Triple
      (fun step bus => BetweenTurns 0 bus ∧ OnTime start stream step bus)
      (drain send)
      fun _ step bus => AllSent bus ∧ OnTime start stream step bus := by
  rintro step bus ⟨⟨sent, items, between, _⟩, onTime⟩
  refine Logic.mono (progress_whileVariant Nat.lt_wfRel.wf
    (DrainTurn start stream count) ?_ (count - sent.length) step bus
    ⟨⟨sent, items, between, rfl⟩, onTime⟩) ?_
  · rintro _ now bus' ⟨⟨sent', items', between', rfl⟩, onTime'⟩ isSome
    rcases between'.items_cases with
      ⟨rfl, isNone⟩ | ⟨cell, tlp, rest, rfl, _⟩
    · rw [isNone] at isSome
      cases isSome
    · have mayFail : ∀ (bus'' : SimbusPcieTlp User) (fault : Fault),
          fault.IsReceive → bus''.txTvalid = .one →
          bus'.outQueue.Extends bus''.outQueue →
          ReceiverFailed { bus'' with fault := some fault } :=
        fun _ fault receives _ _ => ⟨fault, rfl, receives⟩
      have sends : (progress (untilReplies stream) ReceiverFailed
          (Underway count)).ok _ now _ :=
        progress_doSendTlpRaw endpoint nestedSend between'.busy tlp.nonempty
          mayFail onTime'
      have turn := drainOne_ok
        (fun now' clk => clk = clockBefore start stream now' ∧ now < now')
        between' sends
      by_cases enough : count ≤ sent'.length
      · have safe := safety_drainOne nestedSend now bus'
          ⟨⟨sent', _, between', enough⟩, isSome⟩
        refine turn.escape_now safe ?_
        rintro _ _ ⟨_, _, later⟩
        exact Nat.lt_irrefl _ later
      · refine Logic.mono turn ?_
        rintro _ now' bus'' ⟨⟨items'', between''⟩, onTime'', later⟩
        refine ⟨later, _, ?_, ⟨_, items'', between'', rfl⟩, onTime''⟩
        rw [List.length_append, List.length_singleton]
        change count - (sent'.length + 1) < count - sent'.length
        omega
  · rintro _ now bus' ⟨⟨_, ⟨sent', items', between', _⟩, onTime'⟩, isNone⟩
    rcases between'.items_cases with ⟨rfl, _⟩ | ⟨_, _, _, _, isSome⟩
    · exact ⟨between'.allSent, onTime'⟩
    · rw [isSome] at isNone
      cases isNone

/-! ## The outermost call -/

/-- A packet has been put into the empty list. -/
def SimbusPcieTlp.listed
    (bus : SimbusPcieTlp User)
    (tlp : Tlp) : SimbusPcieTlp User :=
  { bus with
    tlpOutList := some bus.cellCount
    cells := Function.update bus.cells bus.cellCount
      (some { data := tlp, next := bus.cellCount })
    cellCount := bus.cellCount + 1
    enqueued := bus.enqueued ++ [tlp] }

/-- With an empty list a call puts its packet there and drains the list. -/
theorem sendTlp_outermost
    {bus : SimbusPcieTlp User}
    (idle : AllSent bus)
    (stack : Nat)
    (tlp : Tlp) :
    (callSendTlp (pcieTlpSendTlp (stack + 1)) tlp).start bus =
        (drain (pcieTlpSendTlp stack)).start (bus.listed tlp) ∧
      Between bus.enqueued [(bus.cellCount, tlp)] (bus.listed tlp) := by
  have queue := Ring.circle_singleton bus.cells bus.cellCount tlp
  refine ⟨?_, ⟨⟨queue, ?_⟩, rfl, idle.transmission.accepted⟩, idle.undriven,
    idle.faultless⟩
  · simp [callSendTlp, pcieTlpSendTlp, sendTlpBody, newCell,
      idle.tlpOutList, setNext, readCell, SimbusPcieTlp.listed]
  · intro cell member
    obtain rfl := List.mem_singleton.mp member
    exact Nat.lt_succ_self _

/-- At an edge between two calls no transfer takes place. -/
theorem AllSent.edge
    {bus : SimbusPcieTlp User}
    (idle : AllSent bus)
    (signals : UntilSignals) :
    recordTransfer (bus.sample signals) = bus.sample signals ∧
      AllSent (bus.sample signals) := by
  have transmission := idle.transmission
  refine ⟨?_, ⟨⟨transmission.queue, transmission.enqueued,
    transmission.accepted⟩, idle.undriven, idle.faultless⟩⟩
  have noTransfer : ¬ ((bus.sample signals).rxTvalid = .one ∧
      (bus.sample signals).rxTready = .one) := by
    rintro ⟨valid, _⟩
    have undriven : (bus.sample signals).rxTvalid = .zero := idle.undriven
    rw [undriven] at valid
    cases valid
  exact if_neg noTransfer

theorem init_allSent
    (user : User)
    (writeFun : Option (WriteFun User))
    (readFun : Option (ReadFun User)) :
    AllSent (SimbusPcieTlp.init user writeFun readFun) where
  transmission := ⟨⟨Ring.circle_nil, nofun⟩, rfl, rfl⟩
  undriven := rfl
  faultless := rfl

end

end Simbus.Pcie
