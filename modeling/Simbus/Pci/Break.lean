import Simbus.Clocked.Watched
import Simbus.Pci.DevicePart

/-!
# Break requests

`simbus_pci_wait_break` in a callback asks the wait of the user to return.
Every wait forgets the requests before it, and a bus request waits as well: a
request that comes up there is lost, any other one ends the wait at once.
-/

namespace Simbus.Pci

open FourValued Clocked

/-! ## Callbacks that request a break -/

/-- The data of a user and the number of break requests so far. -/
structure Requested (User : Type) where
  user : User
  requests : Nat

/--
Callbacks as a user writes them: they do not touch the break flag, but they may
call `simbus_pci_wait_break`, so and so often.
-/
structure BreakingCallbacks (User Handle : Type) where
  need32 :
    Handle → BitVec 64 → BitVec 32 → Device User Handle →
      BitVec 32 × Device User Handle × Nat
  recv32 :
    Handle → BitVec 64 → BitVec 32 → BitVec 32 → Device User Handle →
      Device User Handle × Nat

section

variable {User Handle : Type}

/-- What a callback sees of the device. -/
def Requested.seen
    (device : Device (Requested User) Handle) : Device User Handle :=
  { device with user := device.user.user }

/-- The device after a callback; `simbus_pci_wait_break` sets the flag. -/
def Requested.after
    (device : Device (Requested User) Handle)
    (next : Device User Handle)
    (calls : Nat) : Device (Requested User) Handle :=
  { next with
    user := { user := next.user, requests := device.user.requests + calls }
    breakFlag := device.breakFlag || decide (0 < calls) }

/-- The callbacks with their calls of `simbus_pci_wait_break` counted. -/
def BreakingCallbacks.counted
    (callbacks : BreakingCallbacks User Handle) :
    Callbacks (Requested User) Handle where
  need32 := fun handle addr ben device =>
    let (val, next, calls) :=
      callbacks.need32 handle addr ben (Requested.seen device)
    (val, Requested.after device next calls)
  recv32 := fun handle addr val ben device =>
    let (next, calls) :=
      callbacks.recv32 handle addr val ben (Requested.seen device)
    Requested.after device next calls

/-- The break requests so far. -/
def requestsOf (pci : SimbusPci (Requested User) Handle) : Nat :=
  pci.device.user.requests

/-! ## Sessions -/

/-- The master operations of the library. -/
inductive MasterOperation where
  | read32 (addr : BitVec 64) (ben : BitVec 32)
  | write32 (addr : BitVec 64) (val ben : BitVec 32)
  | write32b (addr : BitVec 64) (words : List (BitVec 32))
      (beFn beLn : BitVec 32)
  | read64 (addr : BitVec 64) (ben : BitVec 32)
  | write64 (addr val : BitVec 64) (ben : BitVec 32)
  | write64b (addr : BitVec 64) (words : List (BitVec 64))
      (beFn beLn : BitVec 32)
  | configRead (dfn : BitVec 8) (dwAddr : BitVec 16)
  | configWrite (dfn : BitVec 8) (dwAddr : BitVec 16) (val ben : BitVec 32)

/-- What a user does with the bus. -/
inductive Operation where
  | wait (clks : Nat) (irq : Option (BitVec 64))
  | master (operation : MasterOperation)

variable (callbacks : Callbacks (Requested User) Handle)
variable (stack : Nat)

/-- A master operation, whose results do not matter here. -/
def MasterOperation.run :
    MasterOperation → Call (Requested User) Handle Unit
  | .read32 addr ben => do
      let _ ← simbusPciRead32 callbacks stack addr ben
  | .write32 addr val ben => simbusPciWrite32 callbacks stack addr val ben
  | .write32b addr words beFn beLn => do
      let _ ← simbusPciWrite32b callbacks stack addr words beFn beLn
  | .read64 addr ben => do
      let _ ← simbusPciRead64 callbacks stack addr ben
  | .write64 addr val ben => simbusPciWrite64 callbacks stack addr val ben
  | .write64b addr words beFn beLn => do
      let _ ← simbusPciWrite64b callbacks stack addr words beFn beLn
  | .configRead dfn dwAddr => do
      let _ ← simbusPciConfigRead callbacks stack dfn dwAddr
  | .configWrite dfn dwAddr val ben =>
      simbusPciConfigWrite callbacks stack dfn dwAddr val ben

/-- An operation; the result is whether a wait has returned a break. -/
def Operation.run : Operation → Call (Requested User) Handle Bool
  | .wait clks irq => do
      let (rc, _) ← simbusPciWait callbacks stack clks irq
      return rc = simbusPciBreak
  | .master operation => do
      operation.run callbacks stack
      return false

/-- The requests that count as answered after an operation. -/
def answeredAfter
    (answered : Nat)
    (returnsBreak : Bool) : Call (Requested User) Handle Nat := do
  let pci ← Program.getState
  return if returnsBreak then requestsOf pci else answered

/--
What a user does, one operation after the other.  The result is the number of
requests that had been made when a wait returned a break for the last time.
-/
def session : List Operation → Nat → Call (Requested User) Handle Nat
  | [], answered => return answered
  | operation :: rest, answered => do
      let returnsBreak ← operation.run callbacks stack
      let answered ← answeredAfter answered returnsBreak
      session rest answered

/-! ## The same with a watch on the bus requests -/

/-- A bus request during which no break may be requested. -/
def watchedRequestBus : Call (Requested User) Handle Unit :=
  Program.watch requestsOf (pciRequestBus callbacks stack)

/--
An operation during whose bus requests no break may be requested; a master
operation can call callbacks at no other time.
-/
def Operation.watchedRun : Operation → Call (Requested User) Handle Bool
  | .wait clks irq => do
      let (rc, _) ← simbusPciWaitWith
        (pciTargetStateMachine callbacks (watchedRequestBus callbacks stack))
        clks irq
      return rc = simbusPciBreak
  | .master operation => do
      Program.watch requestsOf (operation.run callbacks stack)
      return false

/-- A session that fails if a break is requested during a bus request. -/
def watchedSession :
    List Operation → Nat → Call (Requested User) Handle Nat
  | [], answered => return answered
  | operation :: rest, answered => do
      let returnsBreak ← operation.watchedRun callbacks stack
      let answered ← answeredAfter answered returnsBreak
      watchedSession rest answered

end

section

variable {User Handle : Type}
variable {callbacks : Callbacks (Requested User) Handle}
variable {requestBus watched : Call (Requested User) Handle Unit}

/-! ## The watch changes nothing else -/

theorem doTargetMemoryReadSplit_tracks
    (tracks : watched.Tracks requestBus)
    (bar : Fin 8)
    (addr : BitVec 64)
    (attr : BitVec 32)
    (byteCount : Nat) :
    (doTargetMemoryReadSplit callbacks watched bar addr attr byteCount).Tracks
      (doTargetMemoryReadSplit callbacks requestBus bar addr attr
        byteCount) := by
  refine .next fun _ => .next fun _ => .next fun _ => .next fun _ => ?_
  refine .next fun _ => .next fun _ => .next fun _ => .next fun _ => ?_
  exact .next fun _ => .bind tracks fun _ => .refl _

theorem pciTargetStateMachine_tracks
    (tracks : watched.Tracks requestBus) :
    (pciTargetStateMachine callbacks watched).Tracks
      (pciTargetStateMachine callbacks requestBus) := by
  refine .next fun _ => .next fun pci => ?_
  cases targetAction pci with
  | memoryRead bar =>
      refine .next fun pci => .next fun retry => .ite (.refl _) ?_
      refine .next fun pci => .ite ?_ (.refl _)
      refine .next fun _ => .next fun sampled => .ite ?_ (.refl _)
      exact doTargetMemoryReadSplit_tracks tracks bar _ _ _
  | stay =>
      exact .refl _
  | memoryWrite bar =>
      exact .refl _
  | configRead =>
      exact .refl _
  | configWrite =>
      exact .refl _
  | dualAddress =>
      exact .refl _
  | skip =>
      exact .refl _
  | release =>
      exact .refl _

theorem waitLoop_tracks
    (tracks : watched.Tracks requestBus)
    (useIrq : BitVec 64)
    (clks : Nat)
    (mask : BitVec 64) :
    (waitLoop watched useIrq clks mask).Tracks
      (waitLoop requestBus useIrq clks mask) := by
  induction clks generalizing mask with
  | zero =>
      exact .refl _
  | succ clks inductionHypothesis =>
      refine .ite (.refl _) ?_
      refine .next fun _ => .next fun rc => .ite (.refl _) ?_
      refine .bind tracks fun _ => .next fun pci => ?_
      exact .ite (.refl _) (inductionHypothesis _)

theorem simbusPciWaitWith_tracks
    (tracks : watched.Tracks requestBus)
    (clks : Nat)
    (irq : Option (BitVec 64)) :
    (simbusPciWaitWith watched clks irq).Tracks
      (simbusPciWaitWith requestBus clks irq) := by
  refine .ite (.refl _) (.next fun _ => ?_)
  exact .bind (waitLoop_tracks tracks _ _ _) fun _ => .refl _

theorem watchedRun_tracks (stack : Nat) (operation : Operation) :
    (operation.watchedRun callbacks stack).Tracks
      (operation.run callbacks stack) := by
  cases operation with
  | wait clks irq =>
      have machine : (pciTargetStateMachine callbacks
          (watchedRequestBus callbacks stack)).Tracks
            (pciTargetStateMachine callbacks (pciRequestBus callbacks stack)) :=
        pciTargetStateMachine_tracks (Program.watch_tracks requestsOf _)
      exact .bind (simbusPciWaitWith_tracks machine clks irq)
        fun _ => .refl _
  | master operation =>
      exact .bind (Program.watch_tracks requestsOf _) fun _ => .refl _

/-- A session whose watch does not fail is the same session. -/
theorem watchedSession_tracks
    (stack : Nat)
    (operations : List Operation)
    (answered : Nat) :
    (watchedSession callbacks stack operations answered).Tracks
      (session callbacks stack operations answered) := by
  induction operations generalizing answered with
  | nil =>
      exact .refl _
  | cons operation rest inductionHypothesis =>
      refine .bind (watchedRun_tracks stack operation) fun _ => ?_
      exact .next fun answered => inductionHypothesis answered

end

/-! ## Requests in a wait -/

section

variable {User Handle : Type}

/-- Nothing has been requested beyond a number of requests. -/
def Unrequested
    (count : Nat)
    (device : Device (Requested User) Handle) : Prop :=
  device.breakFlag = false ∧ device.user.requests = count

/-- If more has been requested, then the flag says so. -/
def Noted
    (count : Nat)
    (device : Device (Requested User) Handle) : Prop :=
  device.breakFlag = true ∧ count < device.user.requests ∨
    Unrequested count device

/-- If the flag says so, then more has been requested. -/
def Honest
    (count : Nat)
    (device : Device (Requested User) Handle) : Prop :=
  count ≤ device.user.requests ∧
    (device.breakFlag = true → count < device.user.requests)

variable (callbacks : BreakingCallbacks User Handle)

theorem Noted.after
    {count : Nat}
    {device : Device (Requested User) Handle}
    (noted : Noted count device)
    (next : Device User Handle)
    (calls : Nat) :
    Noted count (Requested.after device next calls) := by
  rcases noted with ⟨isSet, more⟩ | ⟨notSet, same⟩
  · left
    refine ⟨?_, Nat.lt_add_right calls more⟩
    rw [Requested.after, isSet, Bool.true_or]
  · rcases Nat.eq_zero_or_pos calls with rfl | called
    · right
      refine ⟨?_, same⟩
      rw [Requested.after, notSet]
      rfl
    · left
      refine ⟨?_, same ▸ Nat.lt_add_of_pos_right called⟩
      rw [Requested.after, decide_eq_true called, Bool.or_true]

theorem Honest.after
    {count : Nat}
    {device : Device (Requested User) Handle}
    (honest : Honest count device)
    (next : Device User Handle)
    (calls : Nat) :
    Honest count (Requested.after device next calls) := by
  obtain ⟨atLeast, more⟩ := honest
  refine ⟨Nat.le_add_right_of_le atLeast, fun isSet => ?_⟩
  rw [Requested.after, Bool.or_eq_true, decide_eq_true_iff] at isSet
  rcases isSet with wasSet | called
  · exact Nat.lt_add_right calls (more wasSet)
  · exact Nat.lt_of_le_of_lt atLeast (Nat.lt_add_of_pos_right called)

theorem noted_callbacksKeep (count : Nat) :
    CallbacksKeep (Noted count) callbacks.counted where
  need32 := fun _ _ _ _ noted => noted.after _ _
  recv32 := fun _ _ _ _ _ noted => noted.after _ _

theorem honest_callbacksKeep (count : Nat) :
    CallbacksKeep (Honest count) callbacks.counted where
  need32 := fun _ _ _ _ honest => honest.after _ _
  recv32 := fun _ _ _ _ _ honest => honest.after _ _

/-- A bus request without any break request leaves the flag cleared. -/
theorem watchedRequestBus_leads (stack count : Nat) :
    Leads (onDevice (Unrequested count))
      (watchedRequestBus callbacks.counted stack)
      (onDevice (Noted count)) := by
  have clears : ∀ device : Device (Requested User) Handle,
      Honest count device →
      Honest count { device with breakFlag := false } :=
    fun _ honest => ⟨honest.1, nofun⟩
  have honest : Leads (onDevice (Unrequested count))
      (pciRequestBus callbacks.counted stack) (onDevice (Honest count)) :=
    Leads.weakenBefore
      (pciRequestBus_keeps (honest_callbacksKeep callbacks count) clears stack)
      fun _ device unrequested =>
        ⟨Nat.le_of_eq unrequested.2.symm, fun isSet =>
          absurd (unrequested.1.symm.trans isSet) Bool.false_ne_true⟩
  refine Logic.Triple.weaken
    (Logic.Triple.watch honest (fun _ _ unrequested => unrequested.2)
      fun _ => trivial)
    (fun _ _ unrequested => unrequested) ?_
  rintro _ _ pci ⟨⟨_, more⟩, same⟩
  right
  refine ⟨?_, same⟩
  by_contra isSet
  rw [Bool.not_eq_false] at isSet
  exact absurd (more isSet) (Nat.lt_irrefl count ∘ (same ▸ ·))

variable {stateMachine : Call (Requested User) Handle Unit}

/-- What a wait has returned, and what has been requested until then. -/
def EndsWait
    (count : Nat)
    (rc : Int)
    (pci : SimbusPci (Requested User) Handle) : Prop :=
  rc = simbusPciBreak ∨ requestsOf pci = count

/-- A wait goes on only while nothing has been requested. -/
theorem waitLoop_ends
    {count : Nat}
    (machine : Leads (onDevice (Unrequested count)) stateMachine
      fun state device =>
        idleWith (Noted count) state device ∨ Unrequested count device)
    (useIrq : BitVec 64)
    (clks : Nat)
    (mask : BitVec 64) :
    anyReply.Triple
      (fun _ => (onDevice (Unrequested count)).of)
      (waitLoop stateMachine useIrq clks mask)
      fun result _ pci =>
        match result with
        | .error rc => EndsWait count rc pci
        | .ok _ => requestsOf pci = count := by
  induction clks generalizing mask with
  | zero =>
      exact Logic.Triple.pure fun _ _ unrequested => unrequested.2
  | succ clks inductionHypothesis =>
      refine Logic.Triple.ite (fun _ => ?_) fun _ => ?_
      · exact Logic.Triple.pure fun _ _ unrequested => unrequested.2
      refine Logic.Triple.bind (exchangeWhileClk_keeps _ _) fun _ => ?_
      refine Logic.Triple.bind (exchangeWhileClk_keeps _ _) fun rc => ?_
      refine Logic.Triple.ite (fun _ => ?_) fun _ => ?_
      · exact Logic.Triple.pure fun _ _ unrequested => .inr unrequested.2
      refine Logic.Triple.bind machine fun _ => ?_
      refine Logic.Triple.getState fun step pci ran => ?_
      rw [Program.start_ite]
      split
      · exact anyReply.finish (.inl rfl)
      · rename_i goesOn
        have unrequested : Unrequested count pci.device := by
          rcases ran with ⟨idle, ⟨isSet, _⟩ | unrequested⟩ | unrequested
          · exact absurd ⟨isSet, idle⟩ goesOn
          · exact unrequested
          · exact unrequested
        exact inductionHypothesis _ step pci unrequested

/-- A wait in which a break is requested returns it. -/
theorem simbusPciWaitWith_ends
    {count : Nat}
    (machine : Leads (onDevice (Unrequested count)) stateMachine
      fun state device =>
        idleWith (Noted count) state device ∨ Unrequested count device)
    (clks : Nat)
    (irq : Option (BitVec 64)) :
    anyReply.Triple
      (fun _ pci => requestsOf pci = count)
      (simbusPciWaitWith stateMachine clks irq)
      fun result _ pci => EndsWait count result.1 pci := by
  refine Logic.Triple.ite (fun _ => ?_) fun _ => ?_
  · refine Logic.Triple.getState fun step pci same => ?_
    exact anyReply.finish (.inr same)
  have cleared : anyReply.Triple
      (fun _ (pci : SimbusPci (Requested User) Handle) =>
        requestsOf pci = count)
      (Program.modifyState fun pci =>
        { pci with device := { pci.device with breakFlag := false } })
      fun _ _ => (onDevice (Unrequested count)).of :=
    Logic.Triple.modifyState fun _ _ same => ⟨rfl, same⟩
  refine Logic.Triple.bind cleared fun _ => ?_
  refine Logic.Triple.bind (waitLoop_ends machine _ _ _) fun result => ?_
  cases result with
  | error rc =>
      exact Logic.Triple.pure fun _ _ ends => ends
  | ok mask =>
      exact Logic.Triple.pure fun _ _ same => .inr same

/-! ## Sessions without requests during bus requests -/

/-- All requests made so far have been answered. -/
abbrev AllAnswered
    (answered : Nat)
    (_ : Nat)
    (pci : SimbusPci (Requested User) Handle) : Prop :=
  requestsOf pci = answered

/-- Nothing in particular holds after any call. -/
theorem anyhow
    {Value : Type}
    (pre : Nat → SimbusPci (Requested User) Handle → Prop)
    (call : Call (Requested User) Handle Value) :
    anyReply.Triple pre call fun _ _ _ => True := by
  intro step pci _ replies _
  cases (call.start pci).run replies with
  | waiting state =>
      trivial
  | failed state =>
      trivial
  | finished value state rest =>
      exact ⟨0, trivial⟩

/-- After an operation all requests are answered. -/
theorem watchedRun_answered
    (stack answered : Nat)
    (operation : Operation) :
    anyReply.Triple
      (AllAnswered answered)
      (operation.watchedRun callbacks.counted stack)
      fun returnsBreak _ pci =>
        returnsBreak = true ∨ requestsOf pci = answered := by
  cases operation with
  | wait clks irq =>
      have machine := pciTargetStateMachine_leads
        (noted_callbacksKeep callbacks answered) (fun _ => .inr)
        (watchedRequestBus_leads callbacks stack answered)
      refine Logic.Triple.bind
        (simbusPciWaitWith_ends machine clks irq) fun result => ?_
      refine Logic.Triple.pure fun _ _ ends => ?_
      exact ends.imp decide_eq_true id
  | master operation =>
      have ends := anyhow (AllAnswered answered)
        (operation.run callbacks.counted stack)
      refine Logic.Triple.bind
        (Logic.Triple.watch ends (fun _ _ same => same) fun _ => trivial)
        fun _ => ?_
      exact Logic.Triple.pure fun _ _ ends => .inr ends.2

theorem watchedSession_answered
    (stack : Nat)
    (operations : List Operation)
    (answered : Nat) :
    anyReply.Triple
      (AllAnswered answered)
      (watchedSession callbacks.counted stack operations answered)
      fun result _ pci => requestsOf pci = result := by
  induction operations generalizing answered with
  | nil =>
      exact Logic.Triple.pure fun _ _ same => same
  | cons operation rest inductionHypothesis =>
      refine Logic.Triple.bind
        (watchedRun_answered callbacks stack answered operation)
        fun returnsBreak => ?_
      have counts : anyReply.Triple
          (fun _ (pci : SimbusPci (Requested User) Handle) =>
            returnsBreak = true ∨ requestsOf pci = answered)
          (answeredAfter answered returnsBreak)
          fun result _ pci => requestsOf pci = result := by
        refine Logic.Triple.getState fun step pci ends => ?_
        refine anyReply.finish ?_
        cases returnsBreak with
        | true =>
            rfl
        | false =>
            exact ends.resolve_left Bool.false_ne_true
      exact Logic.Triple.bind counts fun result => inductionHypothesis result

variable {callbacks}

/--
If no break is requested during a bus request, then every request is answered:
when a session is over, a wait has returned a break since the last one.
-/
theorem session_answered
    {stack answered : Nat}
    {operations : List Operation}
    {pci final : SimbusPci (Requested User) Handle}
    {replies rest : List Reply}
    (finished :
      ((session callbacks.counted stack operations (requestsOf pci)).start
        pci).run replies = .finished answered final rest)
    (quiet : ∀ failed,
      ((watchedSession callbacks.counted stack operations
        (requestsOf pci)).start pci).run replies ≠ .failed failed) :
    requestsOf final = answered := by
  have safe := watchedSession_answered callbacks stack operations
    (requestsOf pci) 0 pci rfl replies fun _ _ => trivial
  have tracks : (watchedSession callbacks.counted stack operations
      (requestsOf pci)).Tracks
        (session callbacks.counted stack operations (requestsOf pci)) :=
    watchedSession_tracks stack operations _
  rcases tracks pci replies with same | ⟨failed, fails⟩
  · rw [same, finished] at safe
    obtain ⟨_, answeredAll⟩ := safe
    exact answeredAll
  · exact absurd fails (quiet failed)

end

/-! ## A device that is asked for a break by configuration writes -/

/-- Every write requests a break. -/
def breakOnWrite : BreakingCallbacks Unit Unit where
  need32 := fun _ _ _ device => (0, device, 0)
  recv32 := fun _ _ _ _ device => (device, 1)

/-- The device right after a rising edge, on a bus that is not granted. -/
def breakDevice : SimbusPci (Requested Unit) Unit :=
  let pci := SimbusPci.init 0 (fun _ => 0) { user := (), requests := 0 }
  { pci with
    pcixcap := .zero
    pciClk := .one
    pciGntN := .one
    seen := BiSignals.released
    device := { pci.device with configRecv32 := some () } }

/-- One UNTIL. -/
def untilReply (pciClk gntN : Logic4) (bi : BiSignals) : Reply :=
  .until
    { pciClk := pciClk
      pcixcap := .zero
      gntN := gntN
      idsel := .z
      resetN := none
      intN := none
      bi := bi }

/-- The falling and the rising edge of a clock. -/
def clockReplies (gntN : Logic4) (bi : BiSignals) : List Reply :=
  [untilReply .zero gntN bi, untilReply .one gntN bi]

/-- The address phase of a configuration write to the device. -/
def configWriteAddress : BiSignals :=
  { BiSignals.released with
    frameN := .zero
    cBe := fun lane => if lane.val = 2 then .zero else .one
    ad := fun line => if line.val = 16 then .one else .zero }

/-- Its data phase. -/
def configWriteData : BiSignals :=
  { BiSignals.released with frameN := .one, irdyN := .zero }

/-- A target that answers at once. -/
def answering : BiSignals :=
  { BiSignals.released with devselN := .zero, trdyN := .zero }

/-- A configuration write on a bus; at its end the device may get a grant. -/
def configWriteReplies (gntAfter : Logic4) : List Reply :=
  clockReplies .one configWriteAddress ++ clockReplies .one configWriteData ++
    clockReplies gntAfter BiSignals.released

/-- What is left of a session: the answered and the actual requests. -/
def sessionCounts
    (outcome : Outcome (SimbusPci (Requested Unit) Unit) Reply Nat) :
    Option (Nat × Nat) :=
  match outcome with
  | .finished answered final _ => some (answered, requestsOf final)
  | _ => none

theorem sessionCounts_eq_some
    {outcome : Outcome (SimbusPci (Requested Unit) Unit) Reply Nat}
    {answered requests : Nat}
    (counts : sessionCounts outcome = some (answered, requests)) :
    ∃ final rest, outcome = .finished answered final rest ∧
      requestsOf final = requests := by
  cases outcome with
  | finished answered' final rest =>
      cases counts
      exact ⟨final, rest, rfl, rfl⟩
  | waiting state =>
      cases counts
  | failed state =>
      cases counts

/-- A wait that is asked for a break returns it. -/
theorem configWrite_answered :
    ∃ final rest,
      ((session breakOnWrite.counted 1 [.wait 5 none]
        (requestsOf breakDevice)).start breakDevice).run
          (configWriteReplies .one) = .finished 1 final rest ∧
      requestsOf final = 1 := by
  have counts : sessionCounts
      (((session breakOnWrite.counted 1 [.wait 5 none]
        (requestsOf breakDevice)).start breakDevice).run
          (configWriteReplies .one)) = some (1, 1) := by
    decide +kernel
  have watchedCounts : sessionCounts
      (((watchedSession breakOnWrite.counted 1 [.wait 5 none]
        (requestsOf breakDevice)).start breakDevice).run
          (configWriteReplies .one)) = some (1, 1) := by
    decide +kernel
  obtain ⟨final, rest, finished, _⟩ := sessionCounts_eq_some counts
  obtain ⟨_, _, watchedFinished, _⟩ := sessionCounts_eq_some watchedCounts
  refine ⟨final, rest, finished, session_answered finished fun failed => ?_⟩
  rw [watchedFinished]
  exact nofun

/--
A request that comes while a write waits for the bus is lost: the wait after
the write returns without a break.
-/
theorem configWrite_lost :
    ∃ final rest,
      ((session breakOnWrite.counted 1
          [.master (.write32 0x1000 0 0), .wait 1 none] 0).start
        breakDevice).run
          (configWriteReplies .zero ++
            clockReplies .zero BiSignals.released ++
            clockReplies .zero answering ++
            clockReplies .zero BiSignals.released ++
            clockReplies .zero BiSignals.released) =
          .finished 0 final rest ∧
      requestsOf final = 1 := by
  apply sessionCounts_eq_some
  decide +kernel

end Simbus.Pci
