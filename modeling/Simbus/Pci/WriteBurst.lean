import Simbus.Clocked.Guarantee
import Simbus.Pci.BurstProgress

/-!
# A write burst on a PCI-X bus

The calls of a target are written down beside the data of its user.  As long as
the master keeps FRAME# at 0 while more than two words are left, the calls of the
target enable each byte of the burst once.  If IRDY# comes again and again, the
target takes every word and comes to the end of the burst.
-/

namespace Simbus.Pci

open FourValued Clocked

section

variable {User Handle : Type}

/-! ## A record of the calls -/

/-- The data of a user, and the calls of its `recv32` callbacks. -/
abbrev Recorded (User : Type) : Type :=
  User × List Recv32Call

/-- A device without its record. -/
def Device.unrecorded
    (device : Device (Recorded User) Handle) : Device User Handle where
  user := device.user.1
  breakFlag := device.breakFlag
  retryRate := device.retryRate
  memTarget := device.memTarget
  configNeed32 := device.configNeed32
  configRecv32 := device.configRecv32

/-- A device with a record. -/
def Device.recorded
    (device : Device User Handle)
    (calls : List Recv32Call) : Device (Recorded User) Handle where
  user := (device.user, calls)
  breakFlag := device.breakFlag
  retryRate := device.retryRate
  memTarget := device.memTarget
  configNeed32 := device.configNeed32
  configRecv32 := device.configRecv32

/-- Callbacks that also write down the calls of `recv32`. -/
def Callbacks.recording
    (callbacks : Callbacks User Handle) :
    Callbacks (Recorded User) Handle where
  need32 := fun handle addr ben device =>
    let (val, next) := callbacks.need32 handle addr ben device.unrecorded
    (val, next.recorded device.user.2)
  recv32 := fun handle addr val ben device =>
    (callbacks.recv32 handle addr val ben device.unrecorded).recorded
      (device.user.2 ++ [⟨addr, val, ben⟩])

theorem Callbacks.KeepRecv32.recording
    {callbacks : Callbacks User Handle}
    {bar : Fin 8}
    (keeps : callbacks.KeepRecv32 bar) :
    callbacks.recording.KeepRecv32 bar :=
  fun handle addr val ben device recv32 =>
    keeps handle addr val ben device.unrecorded recv32

/-! ## The master -/

/-- The words that a target has taken since its record had some length. -/
def wordsTaken
    (burst : WriteBurst)
    (before : Nat)
    (pci : SimbusPci (Recorded User) Handle) : Nat :=
  (pci.device.user.2.length - before) / (burst.wordSize / 4)

/--
A PCI-X bus on which FRAME# is 0 as long as more than two words are left after the
current one.
-/
def burstMaster
    (User Handle : Type)
    (burst : WriteBurst)
    (before : Nat) : Monitor (SimbusPci (Recorded User) Handle) Reply where
  Phase := Unit
  check := fun _ _ => True
  advance := fun _ sent reply _ =>
    match reply with
    | .finish => True
    | .until signals =>
        signals.pcixcap = .one ∧
          (wordsTaken burst before sent + 3 < burst.wordCount →
            signals.bi.frameN = .zero)

/-- A target in the middle of a burst. -/
structure BurstAt
    (bar : Fin 8)
    (burst : WriteBurst)
    (addr : BitVec 64)
    (byteCount : Nat)
    (record : List Recv32Call)
    (word : Nat)
    (pci : SimbusPci (Recorded User) Handle) : Prop where
  pcix : pci.pcixcap = .one
  recv32 : (barOf pci bar).recv32.isSome
  framed : word + 3 < burst.wordCount → pci.seen.frameN = .zero
  calls : ∃ calls, pci.device.user.2 = record ++ calls ∧
    BurstCalls burst addr byteCount word calls

section Burst

variable {bar : Fin 8}
variable {burst : WriteBurst}
variable {addr : BitVec 64}
variable {byteCount : Nat}
variable {record : List Recv32Call}
variable {word : Nat}
variable {Value Result : Type}

/-- The call leaves the target where it is in the burst. -/
abbrev KeepsBurst
    (bar : Fin 8)
    (burst : WriteBurst)
    (addr : BitVec 64)
    (byteCount : Nat)
    (record : List Recv32Call)
    (word : Nat)
    (call : Call (Recorded User) Handle Value) : Prop :=
  Keeps (burstMaster User Handle burst record.length)
    (fun _ => BurstAt bar burst addr byteCount record word) call

/-- The words that have been taken are those of the record. -/
theorem BurstAt.wordsTaken_eq
    {pci : SimbusPci (Recorded User) Handle}
    (isBurst : IsBurst burst addr byteCount)
    (burstAt : BurstAt bar burst addr byteCount record word pci) :
    wordsTaken burst record.length pci = word := by
  obtain ⟨calls, isRecord, burstCalls⟩ := burstAt.calls
  have some : 0 < burst.wordSize / 4 := by
    rcases isBurst with rfl | rfl
    · rw [burst4_calls]
      decide
    · rw [burst8_calls]
      decide
  rw [wordsTaken, isRecord, List.length_append, Nat.add_sub_cancel_left,
    burstCalls.length, Nat.mul_div_cancel word some]

/-- A change that the burst does not see. -/
theorem KeepsBurst.unseen
    {change : SimbusPci (Recorded User) Handle →
      SimbusPci (Recorded User) Handle}
    (samePcixcap : ∀ pci, (change pci).pcixcap = pci.pcixcap)
    (sameSeen : ∀ pci, (change pci).seen = pci.seen)
    (sameDevice : ∀ pci, (change pci).device = pci.device) :
    KeepsBurst bar burst addr byteCount record word
      (Program.modifyState change) := by
  refine Triple.modifyState fun _ pci burstAt => ?_
  exact
    { pcix := (samePcixcap pci).trans burstAt.pcix
      recv32 := by
        rw [barOf, sameDevice]
        exact burstAt.recv32
      framed := by
        rw [sameSeen]
        exact burstAt.framed
      calls := by
        rw [sameDevice]
        exact burstAt.calls }

theorem sendReadyCommand_burst
    (isBurst : IsBurst burst addr byteCount) :
    KeepsBurst bar burst addr byteCount record word
      (sendReadyCommand : Call (Recorded User) Handle Int) := by
  intro _ pci burstAt
  refine meets_await.mpr ⟨trivial, fun reply later advances => ?_⟩
  cases reply with
  | finish =>
      exact meets_finish.mpr burstAt
  | «until» signals =>
      obtain ⟨pcix, frames⟩ := advances
      refine meets_finish.mpr ?_
      rw [burstAt.wordsTaken_eq isBurst] at frames
      exact
        { pcix := pcix
          recv32 := burstAt.recv32
          framed := frames
          calls := burstAt.calls }

theorem pciNextPosedge_burst
    (isBurst : IsBurst burst addr byteCount) :
    KeepsBurst bar burst addr byteCount record word
      (pciNextPosedge : Call (Recorded User) Handle Unit) := by
  refine .bind (.whileDo ?_) fun _ => .bind (.whileDo ?_) fun _ => ?_
  · exact .bind (sendReadyCommand_burst isBurst) fun _ => .pure _
  · exact .bind (sendReadyCommand_burst isBurst) fun _ => .pure _
  · exact KeepsBurst.unseen (fun _ => rfl) (fun _ => rfl) fun _ => rfl

theorem pciNextPosedgeUntilIrdy_burst
    (isBurst : IsBurst burst addr byteCount) :
    KeepsBurst bar burst addr byteCount record word
      (pciNextPosedgeUntilIrdy : Call (Recorded User) Handle Unit) :=
  .bind (pciNextPosedge_burst isBurst) fun _ =>
    .whileDo (pciNextPosedge_burst isBurst)

theorem pciNextPosedges_burst
    (isBurst : IsBurst burst addr byteCount)
    (count : Nat) :
    KeepsBurst bar burst addr byteCount record word
      (pciNextPosedges count : Call (Recorded User) Handle Unit) := by
  induction count with
  | zero =>
      exact .pure _
  | succ count inductionHypothesis =>
      exact .bind (pciNextPosedge_burst isBurst) fun _ => inductionHypothesis

theorem drive_burst (change : BiSignals → BiSignals) :
    KeepsBurst bar burst addr byteCount record word
      (drive change : Call (Recorded User) Handle Unit) :=
  KeepsBurst.unseen (fun _ => rfl) (fun _ => rfl) fun _ => rfl

theorem genrand_burst :
    KeepsBurst bar burst addr byteCount record word
      (genrand : Call (Recorded User) Handle Int) :=
  .getState fun _ _ _ =>
    .bind (KeepsBurst.unseen (fun _ => rfl) (fun _ => rfl) fun _ => rfl)
      fun _ => .pure _

theorem pcixNextPosedge_burst
    (isBurst : IsBurst burst addr byteCount) :
    KeepsBurst bar burst addr byteCount record word
      (pcixNextPosedge : Call (Recorded User) Handle Unit) := by
  refine .getState fun pci _ _ => ?_
  split
  · exact pciNextPosedge_burst isBurst
  · exact .pure _

theorem setTargetState_burst (state : TargetState) :
    KeepsBurst bar burst addr byteCount record word
      (setTargetState state : Call (Recorded User) Handle Unit) :=
  KeepsBurst.unseen (fun _ => rfl) (fun _ => rfl) fun _ => rfl

/-! ## One word -/

variable {callbacks : Callbacks User Handle}

/-- What the calls for a word leave behind. -/
theorem BurstAt.next
    {pci after : SimbusPci (Recorded User) Handle}
    (data : BitVec 64)
    (isBurst : IsBurst burst addr byteCount)
    (positive : 1 ≤ byteCount)
    (inside : word < burst.wordCount)
    (burstAt : BurstAt bar burst addr byteCount record word pci)
    (samePcixcap : after.pcixcap = pci.pcixcap)
    (sameSeen : after.seen = pci.seen)
    (recv32 : (barOf after bar).recv32.isSome)
    (called : after.device.user.2 = pci.device.user.2 ++
      wordCalls burst (addr + BitVec.ofNat 64 (burst.wordSize * word))
        (pcixBen burst word) data) :
    BurstAt bar burst addr byteCount record (word + 1) after where
  pcix := samePcixcap.trans burstAt.pcix
  recv32 := recv32
  framed := by
    intro more
    rw [sameSeen]
    exact burstAt.framed (by omega)
  calls := by
    obtain ⟨calls, isRecord, burstCalls⟩ := burstAt.calls
    refine ⟨_, ?_, burstCalls.word isBurst positive inside data⟩
    rw [called, isRecord, List.append_assoc]

/-- A client whose callback has been called. -/
def received
    (callbacks : Callbacks User Handle)
    (handle : Handle)
    (call : Recv32Call)
    (pci : SimbusPci (Recorded User) Handle) :
    SimbusPci (Recorded User) Handle :=
  { pci with
    device := callbacks.recording.recv32 handle call.addr call.val call.ben
      pci.device }

theorem received_recv32
    {pci : SimbusPci (Recorded User) Handle}
    (keeps : callbacks.KeepRecv32 bar)
    (handle : Handle)
    (call : Recv32Call)
    (recv32 : (barOf pci bar).recv32.isSome) :
    (barOf (received callbacks handle call pci) bar).recv32.isSome :=
  keeps handle call.addr call.val call.ben pci.device.unrecorded recv32

theorem writeBurstReceive_burst
    (keeps : callbacks.KeepRecv32 bar)
    (isBurst : IsBurst burst addr byteCount)
    (positive : 1 ≤ byteCount)
    (inside : word < burst.wordCount) :
    Triple (burstMaster User Handle burst record.length)
      (fun _ => BurstAt bar burst addr byteCount record word)
      (writeBurstReceive callbacks.recording bar burst
        (addr + BitVec.ofNat 64 (burst.wordSize * word)) word)
      fun _ _ pci => BurstAt bar burst addr byteCount record (word + 1) pci ∧
        (word + 3 < burst.wordCount → pci.seen.frameN = .zero) := by
  intro _ pci burstAt
  generalize isPlace : addr + BitVec.ofNat 64 (burst.wordSize * word) = place
  obtain ⟨handle, isHandle⟩ := Option.isSome_iff_exists.mp burstAt.recv32
  have isPcix : pcixMode pci = true := decide_eq_true burstAt.pcix
  rcases isBurst with isBurst | isBurst
  · have size : burst.wordSize = 4 := isBurst ▸ rfl
    let call : Recv32Call :=
      ⟨place &&& ~~~3, getLowWord pci, pcixBen burst word⟩
    have start : (writeBurstReceive callbacks.recording bar burst place
        word).start pci = .finish () (received callbacks handle call pci) := by
      simp only [writeBurstReceive, Program.start_bind, Program.start_getState,
        Behavior.finish_bind, isHandle, isPcix, size, if_true]
      rfl
    rw [start]
    refine meets_finish.mpr ⟨burstAt.next ((getLowWord pci).setWidth 64)
      (.inl isBurst) positive inside rfl rfl ?_ ?_, burstAt.framed⟩
    · exact received_recv32 keeps handle call burstAt.recv32
    · rw [isPlace, isBurst, wordCalls_burst4, ← isBurst,
        BitVec.setWidth_setWidth_of_le _ (by decide), BitVec.setWidth_eq]
      rfl
  · have size : burst.wordSize ≠ 4 := by
      rw [isBurst]
      exact (by decide : 8 ≠ 4)
    let low : Recv32Call :=
      ⟨place &&& ~~~7, (getData64 pci).setWidth 32, pcixBen burst word &&& 15⟩
    let high : Recv32Call :=
      ⟨(place &&& ~~~7) + 4, (getData64 pci >>> 32).setWidth 32,
        (pcixBen burst word >>> 4) &&& 15⟩
    have recv32 := received_recv32 keeps handle low burstAt.recv32
    obtain ⟨later, isLater⟩ := Option.isSome_iff_exists.mp recv32
    have start : (writeBurstReceive callbacks.recording bar burst place
        word).start pci = .finish ()
          (received callbacks later high (received callbacks handle low pci)) := by
      simp only [low, received, pcixBen] at isLater
      simp only [writeBurstReceive, Program.start_bind, Program.start_getState,
        Behavior.finish_bind, isHandle, isPcix, size, if_true, if_false,
        callRecv32, Program.start_modifyState, isLater]
      rfl
    rw [start]
    refine meets_finish.mpr ⟨burstAt.next (getData64 pci) (.inr isBurst)
      positive inside rfl rfl ?_ ?_, burstAt.framed⟩
    · exact received_recv32 keeps later high recv32
    · rw [isPlace, isBurst, wordCalls_burst8, ← isBurst]
      exact List.append_assoc _ _ _

/-! ## The burst -/

/-- The locals of the burst loop, and where the target is. -/
def InLoop
    (bar : Fin 8)
    (burst : WriteBurst)
    (addr : BitVec 64)
    (byteCount : Nat)
    (record : List Recv32Call)
    (current : BitVec 64 × Nat)
    (pci : SimbusPci (Recorded User) Handle) : Prop :=
  current.1 = addr + BitVec.ofNat 64 (burst.wordSize * current.2) ∧
    current.2 < burst.wordCount ∧
    BurstAt bar burst addr byteCount record current.2 pci

/-- A turn of the loop takes one word and goes on if there are more. -/
theorem writeBurstWord_burst
    (keeps : callbacks.KeepRecv32 bar)
    (isBurst : IsBurst burst addr byteCount)
    (positive : 1 ≤ byteCount)
    (current : BitVec 64 × Nat) :
    Triple (burstMaster User Handle burst record.length)
      (fun _ => InLoop bar burst addr byteCount record current)
      (writeBurstWord callbacks.recording bar burst current)
      fun outcome _ pci =>
        match outcome with
        | .inl next => InLoop bar burst addr byteCount record next pci
        | .inr _ =>
            BurstAt bar burst addr byteCount record burst.wordCount pci := by
  obtain ⟨place, word⟩ := current
  rintro phase pci ⟨isPlace, inside, burstAt⟩
  simp only at isPlace inside burstAt
  subst isPlace
  refine Meets.bind
    (pciNextPosedgeUntilIrdy_burst isBurst phase pci burstAt) ?_
  intro _ phase pci burstAt
  refine Meets.bind (writeBurstReceive_burst keeps isBurst positive inside
    phase pci burstAt) ?_
  rintro _ phase pci ⟨next, framed⟩
  have isPcix : pcixMode pci = true := decide_eq_true next.pcix
  simp only [Program.start_bind, Program.start_getState, Behavior.finish_bind,
    isPcix, true_and]
  split
  · rename_i last
    refine meets_finish.mpr ?_
    exact last ▸ next
  · rename_i notLast
    have more : word + 1 < burst.wordCount := by omega
    split
    · refine meets_finish.mpr ⟨?_, more, next⟩
      rw [Nat.mul_succ, BitVec.ofNat_add, BitVec.add_assoc]
    · rename_i ends
      refine (ends ?_).elim
      by_cases two : word + 3 < burst.wordCount
      · exact .inl (framed two)
      · omega

/-- The data phases of a write take all words. -/
theorem writeData_burst
    (keeps : callbacks.KeepRecv32 bar)
    (isBurst : IsBurst burst addr byteCount)
    (positive : 1 ≤ byteCount) :
    Triple (burstMaster User Handle burst record.length)
      (fun _ => BurstAt bar burst addr byteCount record 0)
      (writeData callbacks.recording bar addr burst)
      fun _ _ => BurstAt bar burst addr byteCount record burst.wordCount := by
  have some : 0 < burst.wordCount := by
    rcases isBurst with rfl | rfl
    · change 0 < (addr.toNat % 4 + byteCount + 3) / 4
      omega
    · change 0 < (addr.toNat % 8 + byteCount + 7) / 8
      omega
  have words : Triple (burstMaster User Handle burst record.length)
      (fun _ => BurstAt bar burst addr byteCount record 0)
      (Program.loop (writeBurstWord callbacks.recording bar burst) (addr, 0))
      fun _ _ => BurstAt bar burst addr byteCount record burst.wordCount := by
    let invariant (current : BitVec 64 × Nat) :
        (burstMaster User Handle burst record.length).Phase →
          SimbusPci (Recorded User) Handle → Prop :=
      fun _ => InLoop bar burst addr byteCount record current
    have loops : Triple (burstMaster User Handle burst record.length)
        (invariant (addr, 0))
        (Program.loop (writeBurstWord callbacks.recording bar burst) (addr, 0))
        fun _ _ => BurstAt bar burst addr byteCount record burst.wordCount := by
      refine Triple.loop invariant (fun current => ?_) (addr, 0)
      apply (writeBurstWord_burst keeps isBurst positive current).weaken
      · exact fun _ _ before => before
      · rintro (next | last) _ pci reached
        · exact reached
        · exact reached
    refine loops.weaken (fun _ pci burstAt => ⟨?_, some, burstAt⟩)
      fun _ _ _ => id
    exact (BitVec.add_zero addr).symm
  refine Triple.bind (drive_burst _) fun _ => ?_
  refine Triple.bind (pcixNextPosedge_burst isBurst) fun _ => ?_
  refine Triple.bind (drive_burst _) fun _ => ?_
  refine Triple.bind words fun _ => ?_
  refine Triple.bind (drive_burst _) fun _ => ?_
  refine Triple.bind (pciNextPosedge_burst isBurst) fun _ => ?_
  exact setTargetState_burst .idle

/-! ## The write -/

/-- The burst of an attribute phase. -/
def attributeBurst
    (bar : Fin 8)
    (addr : BitVec 64)
    (attr : SimbusPci User Handle) : WriteBurst :=
  let byteCount := attributeByteCount attr
  if pci64Mode attr bar ∧ addr.toNat % 4 + byteCount > 4 then
    burst8 addr byteCount
  else
    burst4 addr byteCount

theorem attributeBurst_isBurst
    (bar : Fin 8)
    (addr : BitVec 64)
    (attr : SimbusPci User Handle) :
    IsBurst (attributeBurst bar addr attr) addr (attributeByteCount attr) := by
  unfold attributeBurst
  simp only
  split
  · exact .inr rfl
  · exact .inl rfl

/-- The choice whether to retry, and the edge of the attribute phase. -/
def writeAttributePhase (bar : Fin 8) : Call User Handle Bool := do
  let retry ← chooseToRetryW bar
  pciNextPosedge
  return retry

/-- What `do_target_memory_write` does after the attribute phase. -/
def afterAttribute
    (callbacks : Callbacks User Handle)
    (bar : Fin 8)
    (addr : BitVec 64) : Call User Handle Unit := do
  let attr ← Program.getState
  let val ← genrand
  pciNextPosedges (val.tmod 3).toNat
  writeData callbacks bar addr (attributeBurst bar addr attr)

theorem afterAttribute_burst
    (keeps : callbacks.KeepRecv32 bar)
    {attr : SimbusPci (Recorded User) Handle}
    (positive : 1 ≤ attributeByteCount attr)
    (before : BurstAt bar (attributeBurst bar addr attr) addr
      (attributeByteCount attr) record 0 attr) :
    Meets
      (burstMaster User Handle (attributeBurst bar addr attr) record.length)
      (fun _ _ => BurstAt bar (attributeBurst bar addr attr) addr
        (attributeByteCount attr) record
        (attributeBurst bar addr attr).wordCount)
      () ((afterAttribute callbacks.recording bar addr).start attr) := by
  have isBurst := attributeBurst_isBurst bar addr attr
  let rest (val : Int) : Call (Recorded User) Handle Unit := do
    pciNextPosedges (val.tmod 3).toNat
    writeData callbacks.recording bar addr (attributeBurst bar addr attr)
  have whole : Triple
      (burstMaster User Handle (attributeBurst bar addr attr) record.length)
      (fun _ => BurstAt bar (attributeBurst bar addr attr) addr
        (attributeByteCount attr) record 0)
      (genrand >>= rest)
      fun _ _ => BurstAt bar (attributeBurst bar addr attr) addr
        (attributeByteCount attr) record
        (attributeBurst bar addr attr).wordCount :=
    Triple.bind genrand_burst fun val =>
      Triple.bind (pciNextPosedges_burst isBurst (val.tmod 3).toNat) fun _ =>
        writeData_burst keeps isBurst positive
  exact whole () attr before

/-- The burst as `do_target_memory_write` computes it. -/
theorem attributeBurst_eq
    (bar : Fin 8)
    (addr : BitVec 64)
    (attr : SimbusPci User Handle) :
    attributeBurst bar addr attr =
      let byteCount := attributeByteCount attr
      let words := pcixWords attr bar addr byteCount
      let bens :=
        if words.1 = 8 then makeBen8x addr byteCount
        else makeBen4x addr byteCount
      { wordSize := words.1
        wordCount := words.2
        firstBen := bens.1
        lastBen := bens.2 } := by
  simp only [attributeBurst, pcixWords]
  split <;> rfl

/-- The choice whether to retry takes no time. -/
theorem chooseToRetryW_start
    (bar : Fin 8)
    (pci : SimbusPci User Handle) :
    ∃ retry chosen,
      (chooseToRetryW bar).start pci = .finish retry chosen ∧
        chosen.pcixcap = pci.pcixcap := by
  by_cases flag : (barOf pci bar).flags &&& xlateRandomRetryWrite = 0
  · refine ⟨false, pci, ?_, rfl⟩
    simp only [chooseToRetryW, chooseToRetry, Program.start_bind,
      Program.start_getState, Behavior.finish_bind, flag, if_true]
    rfl
  · by_cases rate : pci.device.retryRate ≤ 0
    · refine ⟨false, pci, ?_, rfl⟩
      simp only [chooseToRetryW, chooseToRetry, Program.start_bind,
        Program.start_getState, Behavior.finish_bind, flag, rate, if_true,
        if_false]
      rfl
    · refine ⟨decide ((pci.randomState 0).toInt.tmod pci.device.retryRate = 0),
        { pci with randomState := fun idx => pci.randomState (idx + 1) }, ?_, rfl⟩
      simp only [chooseToRetryW, chooseToRetry, Program.start_bind,
        Program.start_getState, Behavior.finish_bind, flag, rate, if_false]
      rfl

/-- A write that is not retried goes on with what follows its attribute phase. -/
theorem doTargetMemoryWrite_resumeAll
    {device : Callbacks User Handle}
    {pci attr : SimbusPci User Handle}
    {replies : List Reply}
    (isPcix : pcixMode pci)
    (phase : ((writeAttributePhase bar).start pci).run replies =
      .finished false attr []) :
    ((doTargetMemoryWrite device bar).start pci).resumeAll replies =
      (afterAttribute device bar (getAddr pci)).start attr := by
  obtain ⟨retry, chosen, isChosen, samePcixcap⟩ :=
    chooseToRetryW_start bar pci
  have edge : (writeAttributePhase bar).start pci =
      ((pciNextPosedge : Call User Handle Unit).start chosen).bind
        fun _ => .finish retry := by
    simp only [writeAttributePhase, Program.start_bind, isChosen,
      Behavior.finish_bind]
    rfl
  rw [edge] at phase
  have reached : ((pciNextPosedge : Call User Handle Unit).start chosen).run
      replies = .finished () attr [] ∧ retry = false := by
    simp only [Behavior.bind] at phase
    split at phase
    · cases phase
    · cases phase
      exact ⟨by assumption, rfl⟩
    · cases phase
  obtain ⟨reached, rfl⟩ := reached
  have stillPcix : pcixMode chosen = true := by
    rw [pcixMode, samePcixcap]
    exact isPcix
  have follows : (doTargetMemoryWrite device bar).start pci =
      ((pciNextPosedge : Call User Handle Unit).start chosen).bind
        fun _ => (afterAttribute device bar (getAddr pci)).start := by
    simp only [doTargetMemoryWrite, Program.start_bind,
      Program.start_getState, isChosen, Behavior.finish_bind, stillPcix,
      Bool.false_eq_true, if_false, if_true, afterAttribute,
      attributeBurst_eq]
  rw [follows, Behavior.resumeAll_bind _ reached]

theorem attributeByteCount_le (attr : SimbusPci User Handle) :
    attributeByteCount attr ≤ 4095 := by
  have upper : (getCommand attr).toNat < 2 ^ 4 := (getCommand attr).isLt
  have lower : ((getLowWord attr) &&& 0xff).toNat ≤ 255 := by
    rw [BitVec.toNat_and]
    exact Nat.and_le_right
  rw [attributeByteCount]
  omega

/-- What follows the attribute phase comes to its end. -/
theorem clockwise_afterAttribute
    {stream : Nat → ClockCycle}
    {attr : SimbusPci User Handle}
    (ready : MasterReady stream)
    (keeps : callbacks.KeepRecv32 bar)
    (addr : BitVec 64)
    (positive : 1 ≤ attributeByteCount attr)
    (edgeTarget : EdgeTarget bar attr) :
    (clockwise User Handle stream).ok (fun _ _ _ => True) 0
      ((afterAttribute callbacks bar addr).start attr) := by
  have some_ : 0 < (attributeBurst bar addr attr).wordCount := by
    rcases attributeBurst_isBurst bar addr attr with isBurst | isBurst
    · rw [isBurst]
      change 0 < (addr.toNat % 4 + attributeByteCount attr + 3) / 4
      omega
    · rw [isBurst]
      change 0 < (addr.toNat % 8 + attributeByteCount attr + 7) / 8
      omega
  let rest (val : Int) : Call User Handle Unit := do
    pciNextPosedges (val.tmod 3).toNat
    writeData callbacks bar addr (attributeBurst bar addr attr)
  have whole : (clockwise User Handle stream).Keeps (fun _ => EdgeTarget bar)
      (genrand >>= rest) :=
    .bind clockwise_genrand fun val =>
      .bind (clockwise_clocks ready (val.tmod 3).toNat) fun _ =>
        clockwise_writeData ready keeps addr _ some_
  exact Logic.mono (whole 0 attr edgeTarget) fun _ _ _ _ => trivial

/--
The calls since some earlier ones enable each byte of the burst once, and there is
one for each 32 bits of each of its words.
-/
def TakesBurst
    (addr : BitVec 64)
    (byteCount : Nat)
    (words : Nat × Nat)
    (before : List Recv32Call)
    (pci : SimbusPci (Recorded User) Handle) : Prop :=
  ∃ calls,
    pci.device.user.2 = before ++ calls ∧
    calls.flatMap Recv32Call.bytes = burstBytes addr byteCount ∧
    (calls.flatMap Recv32Call.bytes).Nodup ∧
    calls.length = words.2 * (words.1 / 4)

/--
Whenever a PCI-X write comes to its end, its calls enable each byte of the burst
once, and the burst has the words that the target has counted, on both data paths.
It comes to its end, without a failure, if IRDY# comes again and again.
-/
theorem doTargetMemoryWrite_takesBurst
    (keeps : callbacks.KeepRecv32 bar)
    {pci attr : SimbusPci (Recorded User) Handle}
    {replies : List Reply}
    (isPcix : pcixMode pci)
    (notRetried : ((writeAttributePhase bar).start pci).run replies =
      .finished false attr [])
    (stillPcix : pcixMode attr)
    (recv32 : (barOf attr bar).recv32.isSome)
    (positive : 1 ≤ attributeByteCount attr)
    (framed :
      let words := pcixWords attr bar (getAddr pci) (attributeByteCount attr)
      3 < words.2 → attr.seen.frameN = .zero) :
    let behavior := ((doTargetMemoryWrite callbacks.recording bar).start
      pci).resumeAll replies
    let master := burstMaster User Handle (attributeBurst bar (getAddr pci) attr)
      attr.device.user.2.length
    let byteCount := attributeByteCount attr
    let words := pcixWords attr bar (getAddr pci) byteCount
    Meets master
      (fun _ _ => TakesBurst (getAddr pci) byteCount words attr.device.user.2) ()
      behavior ∧
    ∀ stream : Nat → ClockCycle,
      attr.pciClk = .one → MasterReady stream →
      (∀ count, master.Allows
        ((stretch stream 0 count).flatMap ClockCycle.replies) () behavior) →
      ∃ count outs final,
        ClockRun behavior (stretch stream 0 count) outs () final ∧
          TakesBurst (getAddr pci) byteCount words attr.device.user.2 final := by
  have isBurst := attributeBurst_isBurst bar (getAddr pci) attr
  have counted := attributeBurst_eq bar (getAddr pci) attr
  have start : BurstAt bar (attributeBurst bar (getAddr pci) attr)
      (getAddr pci) (attributeByteCount attr) attr.device.user.2 0 attr :=
    { pcix := of_decide_eq_true stillPcix
      recv32 := recv32
      framed := by
        intro more
        rw [counted, Nat.zero_add] at more
        exact framed more
      calls := ⟨[], (List.append_nil _).symm, BurstCalls.none _ _ _⟩ }
  simp only
  rw [doTargetMemoryWrite_resumeAll isPcix notRetried]
  have meets : Meets (burstMaster User Handle
        (attributeBurst bar (getAddr pci) attr) attr.device.user.2.length)
      (fun _ _ => TakesBurst (getAddr pci) (attributeByteCount attr)
        (pcixWords attr bar (getAddr pci) (attributeByteCount attr))
        attr.device.user.2) ()
      ((afterAttribute callbacks.recording bar (getAddr pci)).start attr) := by
    refine (afterAttribute_burst keeps positive start).mono ?_
    intro _ _ final reached
    obtain ⟨calls, isRecord, all⟩ := reached.calls
    have bytes := all.bytes isBurst
    have small := attributeByteCount_le attr
    refine ⟨calls, isRecord, bytes, ?_, ?_⟩
    · rw [bytes]
      exact burstBytes_nodup _ (by omega)
    · have length := all.length
      rw [counted] at length
      exact length
  refine ⟨meets, ?_⟩
  intro stream clock ready allows
  have edgeTarget : EdgeTarget bar attr :=
    ⟨clock, of_decide_eq_true stillPcix, recv32⟩
  obtain ⟨count, outs, _, final, run, _⟩ :=
    clockwise_afterAttribute ready keeps.recording (getAddr pci) positive edgeTarget
  have finished := run.run []
  rw [List.append_nil] at finished
  obtain ⟨_, takes⟩ := meets.of_allows (allows count) finished
  exact ⟨count, outs, final, run, takes⟩

end Burst

end

/-! ## A burst of five bytes -/

/-- A target with one memory region, on a PCI-X bus that carries an address. -/
def burstTarget : SimbusPci (Recorded Unit) Unit :=
  let pci := SimbusPci.init 0 (fun _ => 0) ((), [])
  { pci with
    pcixcap := .one
    pciClk := .one
    seen :=
      { BiSignals.released with
        frameN := .zero
        ad := fun line => if line.val = 1 then .one else .zero }
    device :=
      { pci.device with
        memTarget := fun _ =>
          { SimbusTranslation.unused with recv32 := some () } } }

/-- A user who drops all data. -/
def dropData : Callbacks Unit Unit where
  need32 := fun _ _ _ device => (0, device)
  recv32 := fun _ _ _ _ device => device

/-- An UNTIL of the attribute phase: five bytes. -/
def attributeUntil (pciClk : Logic4) : Reply :=
  .until
    { pciClk := pciClk
      pcixcap := .one
      gntN := .one
      idsel := .z
      resetN := none
      intN := none
      bi :=
        { BiSignals.released with
          frameN := .zero
          cBe := fun _ => .zero
          ad := fun line =>
            if line.val = 0 ∨ line.val = 2 then .one else .zero } }

/-- The target with the attributes on its lines. -/
def burstAttributes : SimbusPci (Recorded Unit) Unit :=
  match ((writeAttributePhase 0).start burstTarget).run
      [attributeUntil .zero, attributeUntil .one] with
  | .waiting pci => pci
  | .finished _ pci _ => pci
  | .failed pci => pci

/-- A clock of a master that is ready and keeps FRAME# at 0. -/
def readyCycle : ClockCycle :=
  let signals (pciClk : Logic4) : SendSignals :=
    { pciClk := pciClk
      pcixcap := .one
      gntN := .one
      idsel := .z
      resetN := none
      intN := none
      bi := { BiSignals.released with frameN := .zero, irdyN := .zero } }
  { high := []
    low := [signals .zero]
    edge := signals .one
    isHigh := noSignals_high
    isLow := by simp [signals]
    falls := by simp
    rises := rfl }

/-- The master of these clocks is one of the burst, whatever the target does. -/
theorem readyCycle_allowed
    {Value : Type}
    (burst : WriteBurst)
    (before count : Nat)
    (phase : Unit)
    (behavior : Behavior (SimbusPci (Recorded Unit) Unit) Reply Value) :
    (burstMaster Unit Unit burst before).Allows
      ((stretch (fun _ => readyCycle) 0 count).flatMap ClockCycle.replies) phase
      behavior := by
  have isReady : ∀ reply ∈
      (stretch (fun _ => readyCycle) 0 count).flatMap ClockCycle.replies,
      ∃ signals, reply = .until signals ∧ signals.pcixcap = .one ∧
        signals.bi.frameN = .zero := by
    intro reply member
    obtain ⟨cycle, isCycle, isReply⟩ := List.mem_flatMap.mp member
    obtain ⟨_, _, rfl⟩ := List.mem_map.mp isCycle
    simp only [ClockCycle.replies, untilReplies, ClockCycle.signals, readyCycle,
      List.nil_append, List.cons_append, List.map_cons, List.map_nil,
      List.mem_cons, List.not_mem_nil, or_false] at isReply
    rcases isReply with rfl | rfl
    · exact ⟨_, rfl, rfl, rfl⟩
    · exact ⟨_, rfl, rfl, rfl⟩
  generalize (stretch (fun _ => readyCycle) 0 count).flatMap
    ClockCycle.replies = inputs at isReady
  induction inputs generalizing phase behavior with
  | nil =>
      trivial
  | cons reply inputs inductionHypothesis =>
      obtain ⟨⟨signals, rfl, pcix, framed⟩, others⟩ :=
        List.forall_mem_cons.mp isReady
      exact fun _ _ => ⟨(), ⟨pcix, fun _ => framed⟩,
        inductionHypothesis () _ others⟩

/-- Five bytes from address 2 on come with two calls, and they do come. -/
theorem doTargetMemoryWrite_takesFive :
    ∃ count outs final,
      ClockRun (((doTargetMemoryWrite dropData.recording 0).start
          burstTarget).resumeAll [attributeUntil .zero, attributeUntil .one])
        (stretch (fun _ => readyCycle) 0 count) outs () final ∧
      final.device.user.2.flatMap Recv32Call.bytes = burstBytes 2 5 ∧
      final.device.user.2.length = 2 := by
  have address : getAddr burstTarget = 2 := by
    decide +kernel
  have count : attributeByteCount burstAttributes = 5 := by
    decide +kernel
  have words : pcixWords burstAttributes 0 2 5 = (4, 2) := by
    decide +kernel
  have keeps : dropData.KeepRecv32 0 :=
    fun _ _ _ _ _ present => present
  have isPcix : pcixMode burstTarget := rfl
  have notRetried : ((writeAttributePhase 0).start burstTarget).run
      [attributeUntil .zero, attributeUntil .one] =
        .finished false burstAttributes [] := rfl
  have ready : MasterReady fun _ => readyCycle :=
    ⟨fun _ => rfl, fun clock => ⟨clock, Nat.le_refl _, nofun⟩⟩
  obtain ⟨clocks, outs, final, run, takes⟩ :=
    (doTargetMemoryWrite_takesBurst keeps isPcix notRetried rfl rfl
      (by rw [count]; decide) (fun _ => rfl)).2 (fun _ => readyCycle) rfl ready
      fun count => readyCycle_allowed _ _ count () _
  simp only [address, count, words] at takes
  obtain ⟨calls, isRecord, bytes, _, length⟩ := takes
  obtain rfl : final.device.user.2 = calls := isRecord
  exact ⟨clocks, outs, final, run, bytes, length⟩

end Simbus.Pci
