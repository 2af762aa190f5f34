import Simbus.Clocked.Returns
import Simbus.Pcie.Beats

/-!
# What the receiver hands on

A write or a read hands on words of the receive buffer.  How many of them is told
by the header, not by the number of words that were received, and the buffer is
not cleared between packets.  A packet that comes while a callback for an earlier
one is under way is put behind that one, whose header is looked at again.
-/

namespace Simbus.Pcie

open Clocked

section

variable {User : Type}

/-! ## Requests -/

/-- What is handed on for a packet, and for a read the answer to some data. -/
inductive Request where
  | write (addr : BitVec 64) (data : List (BitVec 32)) (be0 beN : BitVec 32)
  | read
      (addr : BitVec 64)
      (ndata : Nat)
      (be0 beN : BitVec 32)
      (answer : (Nat → BitVec 32) → Tlp)
  | other

/-- A write of some words behind a header. -/
def writeRequest
    (buf : Nat → BitVec 32)
    (first : Nat)
    (addr : BitVec 64) : Request :=
  .write addr
    ((List.range (tlpLength (buf 0))).map fun idx =>
      byteSwap32 (buf (first + idx)))
    (firstByteEnables (buf 1)) (lastByteEnables (buf 1))

def readRequest
    (requestId : BitVec 16)
    (buf : Nat → BitVec 32)
    (addr : BitVec 64) : Request :=
  .read addr (tlpLength (buf 0)) (firstByteEnables (buf 1))
    (lastByteEnables (buf 1))
    (completionTlp requestId (buf 1) addr (tlpLength (buf 0)))

/-- The request in the receive buffer. -/
def SimbusPcieTlp.request (bus : SimbusPcieTlp User) : Request :=
  let buf := bus.sTlpBuf
  let kind := tlpType (buf 0)
  if kind = 0x40000000 then
    writeRequest buf 3 ((buf 2).setWidth 64)
  else if kind = 0x60000000 then
    writeRequest buf 4 (wideAddress (buf 2) (buf 3))
  else if kind = 0x00000000 then
    readRequest bus.requestId buf ((buf 2).setWidth 64)
  else if kind = 0x20000000 then
    readRequest bus.requestId buf (wideAddress (buf 2) (buf 3))
  else
    .other

/-- The words of a packet that its request is made of. -/
def wordsNeeded (header : BitVec 32) : Nat :=
  let kind := tlpType header
  if kind = 0x40000000 then
    3 + tlpLength header
  else if kind = 0x60000000 then
    4 + tlpLength header
  else if kind = 0x00000000 then
    3
  else if kind = 0x20000000 then
    4
  else
    1

/-- Nothing that the header asks for is missing. -/
def Whole (tlp : List (BitVec 32)) : Prop :=
  wordsNeeded (tlp.headD 0) ≤ tlp.length

/-! ## The code -/

/-- A packet is received, up to the end of its callbacks and its answer. -/
def receiveTlp
    (send : Tlp → Call User Unit)
    (tlp : List (BitVec 32)) : Call User Unit := do
  crankAll tlp
  completeRecvTlp send

/-- In an empty buffer the words of a packet stand at their places. -/
theorem putWords_received
    {bus : SimbusPcieTlp User}
    {words : List (BitVec 32)}
    {idx : Nat}
    (empty : bus.sTlpCnt = 0)
    (within : idx < words.length) :
    (bus.putWords words).sTlpBuf idx = words.getD idx 0 := by
  have word := @putBuffer_within words bus.sTlpBuf 0 idx within
  rw [Nat.zero_add] at word
  rw [SimbusPcieTlp.putWords, empty]
  exact word

/-- What a request does: it calls the callback, if there is one. -/
def serveRequest
    (send : Tlp → Call User Unit)
    (bus : SimbusPcieTlp User) : Request → Call User (Option Tlp)
  | .write addr data be0 beN =>
      match bus.writeFun with
      | none => return none
      | some writeFun => do
          runScript send (writeFun addr data be0 beN)
          return none
  | .read addr ndata be0 beN answer =>
      match bus.readFun with
      | none => return some (answer fun _ => 0)
      | some readFun => do
          let data ← runScript send (readFun addr ndata be0 beN)
          return some (answer fun idx => byteSwap32 (data idx))
  | .other => return none

/-- The words that are swapped in place for a write. -/
def swappedWords (header : BitVec 32) (idx : Nat) : Prop :=
  (tlpType header = 0x40000000 ∧ 3 ≤ idx ∧ idx < 3 + tlpLength header) ∨
    (tlpType header = 0x60000000 ∧ 4 ≤ idx ∧ idx < 4 + tlpLength header)

instance (header : BitVec 32) (idx : Nat) :
    Decidable (swappedWords header idx) :=
  inferInstanceAs (Decidable (_ ∨ _))

/-- A client as its callback finds it. -/
def SimbusPcieTlp.called (bus : SimbusPcieTlp User) : SimbusPcieTlp User :=
  if bus.writeFun.isSome then
    { bus with
      sTlpBuf := fun idx =>
        if swappedWords (bus.sTlpBuf 0) idx then
          byteSwap32 (bus.sTlpBuf idx)
        else
          bus.sTlpBuf idx }
  else
    bus

theorem recvWrite_start
    {bus : SimbusPcieTlp User}
    {first : Nat}
    (send : Tlp → Call User Unit)
    (addr : BitVec 64)
    (swapped : ∀ idx, swappedWords (bus.sTlpBuf 0) idx ↔
      first ≤ idx ∧ idx < first + tlpLength (bus.sTlpBuf 0)) :
    ((do recvWrite send first addr; return none).start bus :
      Behavior (SimbusPcieTlp User) Reply (Option Tlp)) =
      (serveRequest send bus (writeRequest bus.sTlpBuf first addr)).start
        bus.called := by
  rw [Program.start_bind, recvWrite, Program.start_bind,
    Program.start_getState, Behavior.finish_bind, writeRequest, serveRequest]
  cases isWriteFun : bus.writeFun with
  | none =>
      simp [SimbusPcieTlp.called, isWriteFun]
  | some writeFun =>
      have called : bus.called =
          { bus with
            sTlpBuf := fun idx =>
              if first ≤ idx ∧ idx < first + tlpLength (bus.sTlpBuf 0) then
                byteSwap32 (bus.sTlpBuf idx)
              else
                bus.sTlpBuf idx } := by
        rw [SimbusPcieTlp.called, isWriteFun, Option.isSome_some, if_pos rfl]
        simp only [swapped]
      have data : (List.range (tlpLength (bus.sTlpBuf 0))).map
          (fun idx => bus.called.sTlpBuf (first + idx)) =
          (List.range (tlpLength (bus.sTlpBuf 0))).map fun idx =>
            byteSwap32 (bus.sTlpBuf (first + idx)) := by
        apply List.map_congr_left
        intro idx member
        have inside := List.mem_range.mp member
        rw [called]
        simp [inside]
      rw [← data, called]
      rfl

theorem recvRead_start
    {bus : SimbusPcieTlp User}
    (send : Tlp → Call User Unit)
    (addr : BitVec 64) :
    ((do let tlp ← recvRead send addr; return some tlp).start bus :
      Behavior (SimbusPcieTlp User) Reply (Option Tlp)) =
      (serveRequest send bus
        (readRequest bus.requestId bus.sTlpBuf addr)).start bus := by
  rw [Program.start_bind, recvRead, Program.start_bind,
    Program.start_getState, Behavior.finish_bind, readRequest, serveRequest]
  cases bus.readFun with
  | none =>
      rfl
  | some readFun =>
      rw [Program.start_bind, Behavior.bind_assoc]
      rfl

/-- Without a write nothing is swapped. -/
theorem called_of_noWrite
    {bus : SimbusPcieTlp User}
    (notShort : tlpType (bus.sTlpBuf 0) ≠ 0x40000000)
    (notLong : tlpType (bus.sTlpBuf 0) ≠ 0x60000000) :
    bus.called = bus := by
  have none (idx : Nat) : ¬ swappedWords (bus.sTlpBuf 0) idx := by
    rintro (⟨short, _⟩ | ⟨long, _⟩)
    · exact notShort short
    · exact notLong long
  rw [SimbusPcieTlp.called]
  split
  · simp only [none, if_false]
  · rfl

/-- Writes and reads are handed on as their requests. -/
theorem dispatchTlp_request
    {bus : SimbusPcieTlp User}
    (send : Tlp → Call User Unit)
    (isRequest : bus.request ≠ .other) :
    (dispatchTlp send).start bus =
      (serveRequest send bus bus.request).start bus.called := by
  rw [dispatchTlp, Program.start_bind, Program.start_getState,
    Behavior.finish_bind]
  rw [SimbusPcieTlp.request] at isRequest ⊢
  by_cases shortWrite : tlpType (bus.sTlpBuf 0) = 0x40000000
  · simp only [shortWrite]
    exact recvWrite_start send _ (by simp [swappedWords, shortWrite])
  by_cases longWrite : tlpType (bus.sTlpBuf 0) = 0x60000000
  · simp only [longWrite]
    exact recvWrite_start send _ (by simp [swappedWords, longWrite])
  rw [called_of_noWrite shortWrite longWrite]
  by_cases shortRead : tlpType (bus.sTlpBuf 0) = 0x00000000
  · simp only [shortRead]
    exact recvRead_start send _
  by_cases longRead : tlpType (bus.sTlpBuf 0) = 0x20000000
  · simp only [longRead]
    exact recvRead_start send _
  simp only [shortWrite, longWrite, shortRead, longRead, if_false] at isRequest
  exact (isRequest rfl).elim

/--
A write or a read: the packet is put into the buffer, the callback is called for
the request, the buffer is free again, and a read is answered.
-/
theorem receiveTlp_request
    {bus : SimbusPcieTlp User}
    {tlp : List (BitVec 32)}
    (send : Tlp → Call User Unit)
    (nonempty : tlp ≠ [])
    (fits : bus.sTlpCnt + tlp.length ≤ maxTlp)
    (isRequest : (bus.putWords tlp).request ≠ .other) :
    (receiveTlp send tlp).start bus =
      ((serveRequest send (bus.putWords tlp) (bus.putWords tlp).request).start
        (bus.putWords tlp).called).bind fun answer =>
          (do
            Program.modifyState fun bus => { bus with sTlpCnt := 0 }
            match answer with
            | none => pure ()
            | some tlp => callSendTlp send tlp : Call User Unit).start := by
  have some : 1 ≤ (bus.putWords tlp).sTlpCnt := by
    have positive := List.length_pos_iff.mpr nonempty
    simp only [SimbusPcieTlp.putWords]
    omega
  have checked : (check .emptyPacket fun bus : SimbusPcieTlp User =>
      1 ≤ bus.sTlpCnt).start (bus.putWords tlp) =
        .finish () (bus.putWords tlp) := by
    simp [check, some]
  rw [receiveTlp, Program.start_bind, crankAll_putWords fits,
    Behavior.finish_bind, completeRecvTlp, Program.start_bind, checked,
    Behavior.finish_bind, Program.start_bind]
  exact congrArg (Behavior.bind · _) (dispatchTlp_request send isRequest)

/-! ## Earlier packets -/

/-- The request calls a function of the client. -/
def SimbusPcieTlp.CallsBack (bus : SimbusPcieTlp User) : Prop :=
  match bus.request with
  | .write _ _ _ _ => bus.writeFun.isSome
  | .read _ _ _ _ _ => bus.readFun.isSome
  | .other => False

/--
The states of the receiver when a packet begins, after any earlier ones.  What
else the client does does not touch the buffer.  A callback is called with its
packet still in the buffer, which is free after the callback; a request that calls
nothing, and what is no request, is done at once.
-/
inductive Earlier
    (send : Tlp → Call User Unit)
    (user : User)
    (writeFun : Option (WriteFun User))
    (readFun : Option (ReadFun User)) :
    SimbusPcieTlp User → Prop where
  | init :
      Earlier send user writeFun readFun (.init user writeFun readFun)
  | elsewhere
      {bus bus' : SimbusPcieTlp User}
      (earlier : Earlier send user writeFun readFun bus)
      (sTlpBuf : bus'.sTlpBuf = bus.sTlpBuf)
      (sTlpCnt : bus'.sTlpCnt = bus.sTlpCnt)
      (requestId : bus'.requestId = bus.requestId) :
      Earlier send user writeFun readFun bus'
  | called
      {bus : SimbusPcieTlp User}
      {tlp : List (BitVec 32)}
      (earlier : Earlier send user writeFun readFun bus)
      (nonempty : tlp ≠ [])
      (fits : bus.sTlpCnt + tlp.length ≤ maxTlp)
      (callsBack : (bus.putWords tlp).CallsBack) :
      Earlier send user writeFun readFun (bus.putWords tlp).called
  | returned
      {bus : SimbusPcieTlp User}
      (earlier : Earlier send user writeFun readFun bus) :
      Earlier send user writeFun readFun { bus with sTlpCnt := 0 }
  | uncalled
      {bus : SimbusPcieTlp User}
      {tlp : List (BitVec 32)}
      (earlier : Earlier send user writeFun readFun bus)
      (nonempty : tlp ≠ [])
      (fits : bus.sTlpCnt + tlp.length ≤ maxTlp)
      (isRequest : (bus.putWords tlp).request ≠ .other)
      (uncalled : ¬ (bus.putWords tlp).CallsBack) :
      Earlier send user writeFun readFun
        { bus.putWords tlp with sTlpCnt := 0 }
  | passed
      {bus bus' : SimbusPcieTlp User}
      {tlp : List (BitVec 32)}
      (earlier : Earlier send user writeFun readFun bus)
      (fits : bus.sTlpCnt + tlp.length ≤ maxTlp)
      (isOther : (bus.putWords tlp).request = .other)
      (passes : (receiveTlp send tlp).start bus = .finish () bus') :
      Earlier send user writeFun readFun bus'

/-- What is no request leaves the buffer as it is. -/
def SameBuffer (before : SimbusPcieTlp User) (bus : SimbusPcieTlp User) : Prop :=
  bus.requestId = before.requestId ∧ bus.sTlpBuf = before.sTlpBuf

theorem SameBuffer.trans
    {before bus bus' : SimbusPcieTlp User}
    (same : SameBuffer before bus)
    (later : SameBuffer bus bus') :
    SameBuffer before bus' :=
  ⟨later.1.trans same.1, later.2.trans same.2⟩

theorem SameBuffer.request
    {before bus : SimbusPcieTlp User}
    (same : SameBuffer before bus) :
    before.request = bus.request := by
  rw [SimbusPcieTlp.request, SimbusPcieTlp.request, same.1, same.2]

theorem check_keeps
    (before : SimbusPcieTlp User)
    (fault : Fault)
    (condition : SimbusPcieTlp User → Bool) :
    Keeps (anyReplies (SimbusPcieTlp User) Reply)
      (fun _ bus => SameBuffer before bus) (check fault condition) := by
  intro _ bus same
  rw [check]
  simp only
  split
  · exact meets_finish.mpr same
  · exact meets_fail

theorem kinds_of_other
    {bus : SimbusPcieTlp User}
    (isOther : bus.request = .other) :
    tlpType (bus.sTlpBuf 0) ≠ 0x40000000 ∧
      tlpType (bus.sTlpBuf 0) ≠ 0x60000000 ∧
      tlpType (bus.sTlpBuf 0) ≠ 0x00000000 ∧
      tlpType (bus.sTlpBuf 0) ≠ 0x20000000 := by
  refine ⟨?_, ?_, ?_, ?_⟩ <;> intro isKind <;>
    simp [SimbusPcieTlp.request, isKind, writeRequest, readRequest] at isOther

theorem dispatchTlp_other
    {bus : SimbusPcieTlp User}
    (send : Tlp → Call User Unit)
    (isOther : bus.request = .other) :
    Meets (anyReplies (SimbusPcieTlp User) Reply)
      (fun answer _ bus' => answer = none ∧ SameBuffer bus bus') ()
      ((dispatchTlp send).start bus) := by
  have copies (tag : BitVec 8) (words : Nat) :
      Keeps (anyReplies (SimbusPcieTlp User) Reply)
        (fun _ bus' => SameBuffer bus bus') (copyTlpToCompletion tag words) := by
    refine .bind (check_keeps bus _ _) fun _ => ?_
    refine .bind (check_keeps bus _ _) fun _ => ?_
    exact .modifyState fun _ _ same => same
  have message (change : SimbusPcieTlp User → SimbusPcieTlp User)
      (keeps : ∀ bus', SameBuffer bus bus' → SameBuffer bus (change bus')) :
      Keeps (anyReplies (SimbusPcieTlp User) Reply)
        (fun _ bus' => SameBuffer bus bus') (Program.modifyState change) :=
    .modifyState fun _ _ same => keeps _ same
  have ends {call : Call User Unit}
      (keeps : Keeps (anyReplies (SimbusPcieTlp User) Reply)
        (fun _ bus' => SameBuffer bus bus') call) :
      Meets (anyReplies (SimbusPcieTlp User) Reply)
        (fun answer _ bus' => answer = none ∧ SameBuffer bus bus') ()
        ((do call; return none : Call User (Option Tlp)).start bus) := by
    rw [Program.start_bind]
    exact (keeps () bus ⟨rfl, rfl⟩).bind fun _ _ _ same =>
      meets_finish.mpr ⟨rfl, same⟩
  rw [dispatchTlp, Program.start_bind, Program.start_getState,
    Behavior.finish_bind]
  obtain ⟨shortWrite, longWrite, shortRead, longRead⟩ := kinds_of_other isOther
  simp only [shortWrite, longWrite, shortRead, longRead, if_false]
  by_cases completion : tlpType (bus.sTlpBuf 0) = 0x0a000000
  · rw [if_pos completion]
    exact ends (copies _ _)
  rw [if_neg completion]
  by_cases withData : tlpType (bus.sTlpBuf 0) = 0x4a000000
  · rw [if_pos withData]
    exact ends (copies _ _)
  rw [if_neg withData]
  by_cases isMessage : tlpType (bus.sTlpBuf 0) = 0x30000000
  · rw [if_pos isMessage]
    by_cases isAssert : bus.sTlpBuf 1 &&& 0xfc = 0x20
    · rw [if_pos isAssert]
      exact ends (message _ fun _ same => same)
    rw [if_neg isAssert]
    by_cases isDeassert : bus.sTlpBuf 1 &&& 0xfc = 0x24
    · rw [if_pos isDeassert]
      exact ends (message _ fun _ same => same)
    rw [if_neg isDeassert]
    exact meets_finish.mpr ⟨rfl, rfl, rfl⟩
  · rw [if_neg isMessage]
    exact meets_finish.mpr ⟨rfl, rfl, rfl⟩

/-- Such a packet is only put into the buffer. -/
theorem receiveTlp_other
    {send : Tlp → Call User Unit}
    {bus bus' : SimbusPcieTlp User}
    {tlp : List (BitVec 32)}
    (fits : bus.sTlpCnt + tlp.length ≤ maxTlp)
    (isOther : (bus.putWords tlp).request = .other)
    (passes : (receiveTlp send tlp).start bus = .finish () bus') :
    SameBuffer (bus.putWords tlp) bus' ∧ bus'.sTlpCnt = 0 := by
  have meets : Meets (anyReplies (SimbusPcieTlp User) Reply)
      (fun _ _ bus' => SameBuffer (bus.putWords tlp) bus' ∧ bus'.sTlpCnt = 0)
      () ((receiveTlp send tlp).start bus) := by
    rw [receiveTlp, Program.start_bind, crankAll_putWords fits,
      Behavior.finish_bind, completeRecvTlp, Program.start_bind]
    refine (check_keeps (bus.putWords tlp) _ _ () _ ⟨rfl, rfl⟩).bind ?_
    intro _ _ checked same
    rw [Program.start_bind]
    refine (dispatchTlp_other send (same.request ▸ isOther)).bind ?_
    rintro answer _ dispatched ⟨rfl, sameAgain⟩
    exact meets_finish.mpr ⟨same.trans sameAgain, rfl⟩
  rw [passes] at meets
  exact meets_finish.mp meets

section

variable {send : Tlp → Call User Unit}
variable {user : User}
variable {writeFun : Option (WriteFun User)}
variable {readFun : Option (ReadFun User)}

/-- The number of the root does not change. -/
theorem Earlier.requestId
    {bus : SimbusPcieTlp User}
    (earlier : Earlier send user writeFun readFun bus) :
    bus.requestId = 0x01f8 := by
  induction earlier with
  | init =>
      rfl
  | elsewhere _ _ _ same inductionHypothesis =>
      rw [same, inductionHypothesis]
  | called _ _ _ _ inductionHypothesis =>
      rw [SimbusPcieTlp.called]
      split <;> exact inductionHypothesis
  | returned _ inductionHypothesis =>
      exact inductionHypothesis
  | uncalled _ _ _ _ _ inductionHypothesis =>
      exact inductionHypothesis
  | passed _ fits isOther passes inductionHypothesis =>
      obtain ⟨⟨same, _⟩, _⟩ := receiveTlp_other fits isOther passes
      exact same.trans inductionHypothesis

/-! ## Requests that need no earlier words -/

theorem wordsNeeded_le (header : BitVec 32) :
    wordsNeeded header ≤ maxTlp := by
  have length : tlpLength header ≤ 0x3ff := by
    rw [tlpLength, BitVec.toNat_and]
    exact Nat.and_le_right
  simp only [wordsNeeded, maxTlp]
  split_ifs <;> omega

theorem writeRequest_congr
    {buf buf' : Nat → BitVec 32}
    {first : Nat}
    (behindHeader : 2 ≤ first)
    (words : ∀ idx < first + tlpLength (buf 0), buf' idx = buf idx)
    (addr : BitVec 64) :
    writeRequest buf' first addr = writeRequest buf first addr := by
  have header := words 0 (by omega)
  have enables := words 1 (by omega)
  rw [writeRequest, writeRequest, header, enables]
  congr 1
  apply List.map_congr_left
  intro idx member
  rw [words (first + idx) (Nat.add_lt_add_left (List.mem_range.mp member) _)]

/-- A request is made of the words that its header needs. -/
theorem request_congr
    {bus bus' : SimbusPcieTlp User}
    (requestId : bus'.requestId = bus.requestId)
    (words : ∀ idx < wordsNeeded (bus.sTlpBuf 0),
      bus'.sTlpBuf idx = bus.sTlpBuf idx) :
    bus'.request = bus.request := by
  have header : bus'.sTlpBuf 0 = bus.sTlpBuf 0 := by
    refine words 0 ?_
    simp only [wordsNeeded]
    split_ifs <;> omega
  simp only [SimbusPcieTlp.request, header, requestId]
  by_cases shortWrite : tlpType (bus.sTlpBuf 0) = 0x40000000
  · simp only [wordsNeeded, if_pos shortWrite] at words ⊢
    rw [words 2 (by omega), writeRequest_congr (by decide) words]
  by_cases longWrite : tlpType (bus.sTlpBuf 0) = 0x60000000
  · simp only [wordsNeeded, if_neg shortWrite, if_pos longWrite] at words ⊢
    rw [words 2 (by omega), words 3 (by omega),
      writeRequest_congr (by decide) words]
  by_cases shortRead : tlpType (bus.sTlpBuf 0) = 0x00000000
  · simp only [wordsNeeded, if_neg shortWrite, if_neg longWrite,
      if_pos shortRead] at words ⊢
    rw [readRequest, readRequest, header, words 1 (by decide),
      words 2 (by decide)]
  by_cases longRead : tlpType (bus.sTlpBuf 0) = 0x20000000
  · simp only [wordsNeeded, if_neg shortWrite, if_neg longWrite,
      if_neg shortRead, if_pos longRead] at words ⊢
    rw [readRequest, readRequest, header, words 1 (by decide),
      words 2 (by decide), words 3 (by decide)]
  simp only [shortWrite, longWrite, shortRead, longRead, if_false]

/-! ## Requests that show earlier words -/

theorem wideAddress_inj
    {high low high' low' : BitVec 32}
    (same : wideAddress high low = wideAddress high' low') :
    high = high' ∧ low = low' := by
  have isHigh (high low : BitVec 32) : addrHigh (wideAddress high low) = high := by
    apply BitVec.eq_of_getLsbD_eq
    intro bit bounded
    have inside : 32 + bit < 64 := by omega
    have notLow : ¬ 32 + bit < 32 := by omega
    simp [addrHigh, wideAddress, bounded, inside]
  have isLow (high low : BitVec 32) : addrLow (wideAddress high low) = low := by
    apply BitVec.eq_of_getLsbD_eq
    intro bit bounded
    simp [addrLow, wideAddress, bounded]
  constructor
  · rw [← isHigh high low, same, isHigh]
  · rw [← isLow high low, same, isLow]

/-- A word of all ones. -/
def onesWord : BitVec 32 := 0xffffffff

theorem writeRequest_shows
    {buf buf' : Nat → BitVec 32}
    {first idx : Nat}
    {addr addr' : BitVec 64}
    (header : buf' 0 = buf 0)
    (zero : buf idx = 0)
    (ones : buf' idx = onesWord)
    (place : idx = 1 ∨ first ≤ idx ∧ idx < first + tlpLength (buf 0)) :
    writeRequest buf first addr ≠ writeRequest buf' first addr' := by
  intro same
  rw [writeRequest, writeRequest, header, Request.write.injEq,
    List.map_inj_left] at same
  obtain ⟨_, data, be0, _⟩ := same
  rcases place with rfl | ⟨behind, inside⟩
  · rw [zero, ones] at be0
    exact absurd be0 (by decide)
  · have word := data (idx - first) (List.mem_range.mpr (by omega))
    have isIdx : first + (idx - first) = idx := by omega
    rw [isIdx, zero, ones] at word
    exact absurd word (by decide)

/-- A word that is needed shows in the request. -/
theorem request_shows
    {bus bus' : SimbusPcieTlp User}
    {idx : Nat}
    (header : bus'.sTlpBuf 0 = bus.sTlpBuf 0)
    (behindHeader : 0 < idx)
    (needed : idx < wordsNeeded (bus.sTlpBuf 0))
    (zero : bus.sTlpBuf idx = 0)
    (ones : bus'.sTlpBuf idx = onesWord) :
    bus.request ≠ bus'.request := by
  simp only [SimbusPcieTlp.request, header]
  by_cases shortWrite : tlpType (bus.sTlpBuf 0) = 0x40000000
  · simp only [wordsNeeded, if_pos shortWrite] at needed ⊢
    by_cases isAddress : idx = 2
    · subst isAddress
      intro same
      have addr := (Request.write.inj same).1
      rw [zero, ones] at addr
      exact absurd addr (by decide)
    · exact writeRequest_shows header zero ones (by omega)
  by_cases longWrite : tlpType (bus.sTlpBuf 0) = 0x60000000
  · simp only [wordsNeeded, if_neg shortWrite, if_pos longWrite] at needed ⊢
    by_cases isAddress : idx = 2 ∨ idx = 3
    · intro same
      obtain ⟨high, low⟩ := wideAddress_inj (Request.write.inj same).1
      rcases isAddress with rfl | rfl
      · rw [zero, ones] at high
        exact absurd high (by decide)
      · rw [zero, ones] at low
        exact absurd low (by decide)
    · exact writeRequest_shows header zero ones (by omega)
  by_cases shortRead : tlpType (bus.sTlpBuf 0) = 0x00000000
  · simp only [wordsNeeded, if_neg shortWrite, if_neg longWrite,
      if_pos shortRead] at needed ⊢
    intro same
    obtain ⟨addr, _, be0, _⟩ := Request.read.inj same
    have place : idx = 1 ∨ idx = 2 := by omega
    rcases place with rfl | rfl
    · rw [zero, ones] at be0
      exact absurd be0 (by decide)
    · rw [zero, ones] at addr
      exact absurd addr (by decide)
  by_cases longRead : tlpType (bus.sTlpBuf 0) = 0x20000000
  · simp only [wordsNeeded, if_neg shortWrite, if_neg longWrite,
      if_neg shortRead, if_pos longRead] at needed ⊢
    intro same
    obtain ⟨addr, _, be0, _⟩ := Request.read.inj same
    obtain ⟨high, low⟩ := wideAddress_inj addr
    have place : idx = 1 ∨ idx = 2 ∨ idx = 3 := by omega
    rcases place with rfl | rfl | rfl
    · rw [zero, ones] at be0
      exact absurd be0 (by decide)
    · rw [zero, ones] at high
      exact absurd high (by decide)
    · rw [zero, ones] at low
      exact absurd low (by decide)
  simp only [wordsNeeded, if_neg shortWrite, if_neg longWrite,
    if_neg shortRead, if_neg longRead] at needed
  omega

/-! ## Two histories -/

/-- The header of a write with a 32-bit address. -/
def writeHeader (ndata : Nat) : BitVec 32 :=
  0x40000000 ||| BitVec.ofNat 32 ndata

theorem request_writeHeader
    {bus : SimbusPcieTlp User}
    {ndata : Nat}
    (bounded : ndata ≤ 0x3ff)
    (header : bus.sTlpBuf 0 = writeHeader ndata) :
    bus.request =
        writeRequest bus.sTlpBuf 3 ((bus.sTlpBuf 2).setWidth 64) ∧
      tlpLength (bus.sTlpBuf 0) = ndata := by
  have kind : tlpType (bus.sTlpBuf 0) = 0x40000000 := by
    rw [header]
    exact tlpType_header bounded (by decide)
  constructor
  · simp only [SimbusPcieTlp.request, if_pos kind]
  · rw [header]
    exact tlpLength_header bounded (by decide)

theorem called_sTlpCnt (bus : SimbusPcieTlp User) :
    bus.called.sTlpCnt = bus.sTlpCnt := by
  rw [SimbusPcieTlp.called]
  split <;> rfl

/-- A header is not swapped. -/
theorem called_header (bus : SimbusPcieTlp User) :
    bus.called.sTlpBuf 0 = bus.sTlpBuf 0 := by
  have notSwapped : ¬ swappedWords (bus.sTlpBuf 0) 0 := by
    rintro (⟨_, behind, _⟩ | ⟨_, behind, _⟩) <;> omega
  rw [SimbusPcieTlp.called]
  split
  · exact if_neg notSwapped
  · rfl

/-- A write is in the buffer while its callback is under way. -/
theorem earlier_writing
    {cnt ndata : Nat}
    (some : 0 < cnt)
    (fits : cnt ≤ maxTlp)
    (bounded : ndata ≤ 0x3ff) :
    ∃ bus, Earlier send user writeFun readFun bus ∧ bus.sTlpCnt = cnt ∧
      bus.sTlpBuf 0 = writeHeader ndata := by
  let ready : SimbusPcieTlp User :=
    { SimbusPcieTlp.init user writeFun readFun with
      writeFun := Option.some fun _ _ _ _ => .done () }
  let tlp := writeHeader ndata :: List.replicate (cnt - 1) 0
  have isReady : Earlier send user writeFun readFun ready :=
    .elsewhere .init rfl rfl rfl
  have length : ready.sTlpCnt + tlp.length = cnt := by
    simp only [ready, tlp, SimbusPcieTlp.init, List.length_cons,
      List.length_replicate]
    omega
  have header : (ready.putWords tlp).sTlpBuf 0 = writeHeader ndata :=
    @putBuffer_within tlp ready.sTlpBuf 0 0 (Nat.zero_lt_succ _)
  have callsBack : (ready.putWords tlp).CallsBack := by
    rw [SimbusPcieTlp.CallsBack, (request_writeHeader bounded header).1]
    rfl
  have earlier : Earlier send user writeFun readFun
      (ready.putWords tlp).called :=
    .called isReady (List.cons_ne_nil _ _) (length ▸ fits) callsBack
  refine ⟨_, earlier, ?_, ?_⟩
  · rw [called_sTlpCnt]
    exact length
  · rw [called_header, header]

/-- A packet of all ones is unhandled and stays in the buffer. -/
theorem earlier_ones
    {length : Nat}
    (positive : 0 < length)
    (room : length ≤ maxTlp) :
    ∃ bus, Earlier send user writeFun readFun bus ∧ bus.sTlpCnt = 0 ∧
      ∀ idx < length, bus.sTlpBuf idx = onesWord := by
  let fresh : SimbusPcieTlp User := .init user writeFun readFun
  let tlp := List.replicate length onesWord
  have count : (fresh.putWords tlp).sTlpCnt = length := by
    simp [SimbusPcieTlp.putWords, fresh, tlp, SimbusPcieTlp.init]
  have fits : fresh.sTlpCnt + tlp.length ≤ maxTlp := count.trans_le room
  have words (idx : Nat) (inside : idx < length) :
      (fresh.putWords tlp).sTlpBuf idx = onesWord := by
    have within : idx < tlp.length := by
      rwa [List.length_replicate]
    have word := @putBuffer_within tlp fresh.sTlpBuf 0 idx within
    rw [Nat.zero_add, List.getD_eq_getElem?_getD,
      List.getElem?_replicate_of_lt inside] at word
    exact word
  have kind : tlpType ((fresh.putWords tlp).sTlpBuf 0) = 0xff000000 := by
    rw [words 0 positive]
    decide
  have isOther : (fresh.putWords tlp).request = .other := by
    simp [SimbusPcieTlp.request, kind]
  have checked : (check .emptyPacket fun bus : SimbusPcieTlp User =>
      1 ≤ bus.sTlpCnt).start (fresh.putWords tlp) =
        .finish () (fresh.putWords tlp) := by
    simp [check, count, Nat.ne_of_gt positive]
  have dispatched : (dispatchTlp send).start (fresh.putWords tlp) =
      .finish none (fresh.putWords tlp) := by
    rw [dispatchTlp, Program.start_bind, Program.start_getState,
      Behavior.finish_bind]
    simp only [kind]
    rfl
  have passes : (receiveTlp send tlp).start fresh =
      .finish () { fresh.putWords tlp with sTlpCnt := 0 } := by
    rw [receiveTlp, Program.start_bind, crankAll_putWords fits,
      Behavior.finish_bind, completeRecvTlp, Program.start_bind, checked,
      Behavior.finish_bind, Program.start_bind, dispatched, Behavior.finish_bind]
    rfl
  exact ⟨{ fresh.putWords tlp with sTlpCnt := 0 },
    .passed .init fits isOther passes, rfl, words⟩

/-! ## The receiver -/

/--
The request that is handed on for a packet is the same after all earlier packets
that have left so many words, if and only if they have left none and the packet
has all words that its header asks for.
-/
theorem request_forgets_iff
    (send : Tlp → Call User Unit)
    (user : User)
    (writeFun : Option (WriteFun User))
    (readFun : Option (ReadFun User))
    {cnt : Nat}
    {tlp : List (BitVec 32)}
    (nonempty : tlp ≠ [])
    (fits : cnt + tlp.length ≤ maxTlp) :
    (∀ bus bus', Earlier send user writeFun readFun bus →
      Earlier send user writeFun readFun bus' →
      bus.sTlpCnt = cnt → bus'.sTlpCnt = cnt →
      (bus.putWords tlp).request = (bus'.putWords tlp).request) ↔
        cnt = 0 ∧ Whole tlp := by
  have positive := List.length_pos_iff.mpr nonempty
  constructor
  · intro same
    have none : cnt = 0 := by
      by_contra some
      have behind : 0 < cnt := Nat.pos_of_ne_zero some
      -- Behind a write of no word and behind a write of one word.
      obtain ⟨bus, earlier, isCnt, header⟩ := @earlier_writing User send user
        writeFun readFun cnt 0 behind (by omega) (by decide)
      obtain ⟨bus', earlier', isCnt', header'⟩ := @earlier_writing User send user
        writeFun readFun cnt 1 behind (by omega) (by decide)
      have stays (bus : SimbusPcieTlp User) (isCnt : bus.sTlpCnt = cnt) :
          (bus.putWords tlp).sTlpBuf 0 = bus.sTlpBuf 0 :=
        putBuffer_before (isCnt ▸ behind)
      obtain ⟨request, length⟩ := @request_writeHeader User (bus.putWords tlp) 0
        (by decide) ((stays bus isCnt).trans header)
      obtain ⟨request', length'⟩ := @request_writeHeader User
        (bus'.putWords tlp) 1 (by decide) ((stays bus' isCnt').trans header')
      have equal := same bus bus' earlier earlier' isCnt isCnt'
      rw [request, request', writeRequest, writeRequest, length, length'] at equal
      have data := congrArg List.length (Request.write.inj equal).2.1
      rw [List.length_map, List.length_map] at data
      cases data
    subst none
    refine ⟨rfl, ?_⟩
    by_contra short
    have missing : tlp.length < wordsNeeded (tlp.headD 0) := Nat.not_le.mp short
    obtain ⟨bus, earlier, isCnt, ones⟩ := @earlier_ones User send user writeFun
      readFun _ (positive.trans missing) (wordsNeeded_le _)
    -- In a fresh buffer the first missing word is 0.
    let fresh : SimbusPcieTlp User := .init user writeFun readFun
    have header (bus : SimbusPcieTlp User) (isCnt : bus.sTlpCnt = 0) :
        (bus.putWords tlp).sTlpBuf 0 = tlp.headD 0 := by
      rw [putWords_received isCnt positive, List.headD_eq_getD]
    refine request_shows
      ((header bus isCnt).trans (header fresh rfl).symm) positive
      ((header fresh rfl).symm ▸ missing) ?_ ?_
      (same fresh bus .init earlier rfl isCnt)
    · exact putBuffer_beyond (Nat.zero_add tlp.length).le
    · have beyond : bus.sTlpCnt + tlp.length ≤ tlp.length := by
        rw [isCnt, Nat.zero_add]
      exact (putBuffer_beyond beyond).trans (ones _ missing)
  · rintro ⟨rfl, whole⟩ bus bus' earlier earlier' isCnt isCnt'
    refine request_congr ?_ fun idx needed => ?_
    · exact earlier.requestId.trans earlier'.requestId.symm
    · rw [putWords_received isCnt' positive, ← List.headD_eq_getD] at needed
      have within : idx < tlp.length := needed.trans_le whole
      rw [putWords_received isCnt within, putWords_received isCnt' within]

end

end

/-! ## A client that keeps what it is handed -/

/-- A client that keeps the data of its writes. -/
def recordingRoot : SimbusPcieTlp (List (List (BitVec 32))) :=
  .init [] (some fun _ data _ _ => .look fun seen =>
    .change (seen ++ [data]) (.done ())) none

/-- A write of one word. -/
def wordWrite : List (BitVec 32) :=
  [0x40000001, 0xff, 0x2000, 0xdeadbeef]

/-- The header of one, without the word. -/
def shortWrite : List (BitVec 32) :=
  [0x40000001, 0xff, 0x1000]

theorem wordWrite_forgets :
    (∀ bus bus', Earlier (pcieTlpSendTlp 1) recordingRoot.user
        recordingRoot.writeFun none bus →
      Earlier (pcieTlpSendTlp 1) recordingRoot.user
        recordingRoot.writeFun none bus' →
      bus.sTlpCnt = 0 → bus'.sTlpCnt = 0 →
      (bus.putWords wordWrite).request = (bus'.putWords wordWrite).request) ↔
        0 = 0 ∧ Whole wordWrite :=
  request_forgets_iff _ _ _ _ (List.cons_ne_nil _ _) (by decide)

/--
The short write hands on 0 as the first packet, and the word of the earlier write
as the second one.
-/
theorem shortWrite_remembers :
    ((receiveTlp (pcieTlpSendTlp 1) shortWrite).start recordingRoot).state.user =
        [[0]] ∧
      ((do
        receiveTlp (pcieTlpSendTlp 1) wordWrite
        receiveTlp (pcieTlpSendTlp 1) shortWrite : Call _ Unit).start
          recordingRoot).state.user = [[0xefbeadde], [0xdeadbeef]] :=
  ⟨rfl, rfl⟩

end Simbus.Pcie
