import Simbus.Pci.Selecting
import Simbus.Pci.TargetIdle

/-!
# What a read returns

`simbus_pci_read32` and `simbus_pci_read64` ask again until a target answers with
data or nobody answers.  A 32-bit read returns the word, or all ones where there is
none.  A 64-bit read does not look at the mask of the X and Z bits, and returns 48
ones if nobody answers.
-/

namespace Simbus.Pci

open FourValued Clocked

/-! ## Data lines -/

section Lines

variable {width : Nat}

/-- Every line carries a bit. -/
def Known (lines : Fin width → Logic4) : Prop :=
  ∀ line, lines line = .zero ∨ lines line = .one

instance (lines : Fin width → Logic4) : Decidable (Known lines) :=
  inferInstanceAs (Decidable (∀ _, _))

/-- The word on the lines if all bits are known, and else all ones. -/
def exactWord (lines : Fin width → Logic4) : BitVec width :=
  if Known lines then sampleWord lines else BitVec.allOnes width

/-- The word in which X and Z count as 1. -/
def raisedWord (lines : Fin width → Logic4) : BitVec width :=
  sampleWord fun line => if lines line ≠ .zero then .one else .zero

/-- The mask of the X and Z bits. -/
def unknownMask (lines : Fin width → Logic4) : BitVec width :=
  sampleWord fun line =>
    if lines line = .x ∨ lines line = .z then .one else .zero

variable {lines : Fin width → Logic4}

theorem unknownMask_eq_zero_iff :
    unknownMask lines = 0 ↔ Known lines := by
  constructor
  · intro isZero line
    have bit := congrArg (fun word => word[line.val]) isZero
    simp only [unknownMask, getElem_sampleWord] at bit
    have known : ¬ (lines line = .x ∨ lines line = .z) := by
      intro unknown
      simp [unknown] at bit
    cases level : lines line with
    | zero =>
        exact .inl rfl
    | one =>
        exact .inr rfl
    | z =>
        exact (known (.inr level)).elim
    | x =>
        exact (known (.inl level)).elim
  · intro known
    apply BitVec.eq_of_getElem_eq
    intro line bounded
    rw [unknownMask, getElem_sampleWord]
    rcases known ⟨line, bounded⟩ with isZero | isOne
    · simp [isZero]
    · simp [isOne]

theorem raisedWord_known (known : Known lines) :
    raisedWord lines = sampleWord lines := by
  refine congrArg sampleWord (funext fun line => ?_)
  rcases known line with isZero | isOne
  · simp [isZero]
  · simp [isOne]

theorem raisedWord_eq_allOnes_iff :
    raisedWord lines = BitVec.allOnes width ↔ ∀ line, lines line ≠ .zero := by
  constructor
  · intro allOnes line isZero
    have bit := congrArg (fun word => word[line.val]) allOnes
    simp only [raisedWord, getElem_sampleWord] at bit
    simp [isZero] at bit
  · intro raised
    apply BitVec.eq_of_getElem_eq
    intro line bounded
    rw [raisedWord, getElem_sampleWord]
    simp [raised ⟨line, bounded⟩]

/-- Counting X and Z as 1 gives the right word in two cases. -/
theorem raisedWord_exact_iff :
    raisedWord lines = exactWord lines ↔
      Known lines ∨ ∀ line, lines line ≠ .zero := by
  unfold exactWord
  split
  · rename_i known
    exact ⟨fun _ => .inl known, fun _ => raisedWord_known known⟩
  · rename_i unknown
    rw [raisedWord_eq_allOnes_iff]
    exact ⟨.inr, fun either => either.resolve_left unknown⟩

end Lines

section

variable {User Handle Value Result : Type}

/-! ## Answers of a target -/

/-- What a target does with an access. -/
inductive Answer where
  | noResponse
  | retry
  | data (claim last : BiSignals)

/--
How a target answers, from the first edge at which the master looks for DEVSEL#.
The master gives up after the fourth edge without DEVSEL#, and its assertion allows
255 wait states.
-/
inductive Answers (first : BiSignals) : List ClockCycle → Answer → Prop where
  | noResponse
      {cycles : List ClockCycle}
      (missed : ¬ HasDevsel first)
      (others : ∀ cycle ∈ cycles, ¬ HasDevsel cycle.bus)
      (counted : cycles.length = 3) :
      Answers first cycles .noResponse
  | retry
      {selecting waiting : List ClockCycle}
      {claim last : BiSignals}
      (claimed : WaitsUntil HasDevsel first selecting claim)
      (inTime : selecting.length ≤ 3)
      (answered : WaitsUntil Answered claim waiting last)
      (soon : waiting.length < 256)
      (refused : last.trdyN ≠ .zero) :
      Answers first (selecting ++ waiting) .retry
  | data
      {selecting waiting : List ClockCycle}
      {claim last : BiSignals}
      (claimed : WaitsUntil HasDevsel first selecting claim)
      (inTime : selecting.length ≤ 3)
      (answered : WaitsUntil Answered claim waiting last)
      (soon : waiting.length < 256)
      (ready : last.trdyN = .zero) :
      Answers first (selecting ++ waiting) (.data claim last)

/-- The low data lines. -/
def lowLines (bus : BiSignals) (line : Fin 32) : Logic4 :=
  bus.ad (lowLine line)

/-- The data lines of two words. -/
def joinLines (low high : BiSignals) (line : Fin 64) : Logic4 :=
  if bounded : line.val < 32 then
    low.ad line
  else
    high.ad ⟨line.val - 32, by omega⟩

/--
The cycles of a 32-bit read up to the last edge with an answer, and the data lines
then.
-/
inductive Reading32
    (callbacks : Callbacks User Handle)
    (stack : Nat)
    (addr : BitVec 64)
    (ben : BitVec 32) :
    SimbusPci User Handle → List ClockCycle → Option (Fin 32 → Logic4) →
      Prop where
  | noResponse
      {pci addressed : SimbusPci User Handle}
      {starting cycles : List ClockCycle}
      {next : ClockCycle}
      {outs : List BiSignals}
      (started : ClockRun
        ((startTransaction callbacks stack addr 0xf6 ben false false).start pci)
        starting outs () addressed)
      (answers : Answers next.bus cycles .noResponse) :
      Reading32 callbacks stack addr ben pci (starting ++ next :: cycles) none
  | data
      {pci addressed : SimbusPci User Handle}
      {starting cycles : List ClockCycle}
      {next : ClockCycle}
      {outs : List BiSignals}
      {claim last : BiSignals}
      (started : ClockRun
        ((startTransaction callbacks stack addr 0xf6 ben false false).start pci)
        starting outs () addressed)
      (answers : Answers next.bus cycles (.data claim last)) :
      Reading32 callbacks stack addr ben pci (starting ++ next :: cycles)
        (some (lowLines last))
  | retry
      {pci addressed after : SimbusPci User Handle}
      {starting cycles cyclesLater : List ClockCycle}
      {next release : ClockCycle}
      {outs outsReleased : List BiSignals}
      {refused : Int × BitVec 32 × BitVec 32}
      {answer : Option (Fin 32 → Logic4)}
      (started : ClockRun
        ((startTransaction callbacks stack addr 0xf6 ben false false).start pci)
        starting outs () addressed)
      (answers : Answers next.bus cycles .retry)
      (released : ClockRun
        ((genericPciRead32 callbacks stack addr 0xf6 ben
          0xffffffff).start pci)
        (starting ++ next :: (cycles ++ [release])) outsReleased refused after)
      (later : Reading32 callbacks stack addr ben after cyclesLater answer) :
      Reading32 callbacks stack addr ben pci
        (starting ++ next :: (cycles ++ [release]) ++ cyclesLater) answer

/-- The same for a 64-bit read, which a target answers with one or two words. -/
inductive Reading64
    (callbacks : Callbacks User Handle)
    (stack : Nat)
    (addr : BitVec 64)
    (ben : BitVec 32) :
    SimbusPci User Handle → List ClockCycle → Option (Fin 64 → Logic4) →
      Prop where
  | noResponse
      {pci addressed : SimbusPci User Handle}
      {starting cycles : List ClockCycle}
      {outs : List BiSignals}
      (started : ClockRun
        ((startTransaction callbacks stack addr 0xf6 ben true false).start pci)
        starting outs () addressed)
      (answers : Answers addressed.seen cycles .noResponse) :
      Reading64 callbacks stack addr ben pci (starting ++ cycles) none
  | acknowledged
      {pci addressed : SimbusPci User Handle}
      {starting cycles : List ClockCycle}
      {outs : List BiSignals}
      {claim last : BiSignals}
      (started : ClockRun
        ((startTransaction callbacks stack addr 0xf6 ben true false).start pci)
        starting outs () addressed)
      (answers : Answers addressed.seen cycles (.data claim last))
      (wide : claim.ack64N = .zero)
      (stillWide : last.ack64N = .zero) :
      Reading64 callbacks stack addr ben pci (starting ++ cycles)
        (some last.ad)
  | twoWords
      {pci addressed : SimbusPci User Handle}
      {starting cycles waiting : List ClockCycle}
      {next : ClockCycle}
      {outs : List BiSignals}
      {claim low high : BiSignals}
      (started : ClockRun
        ((startTransaction callbacks stack addr 0xf6 ben true false).start pci)
        starting outs () addressed)
      (answers : Answers addressed.seen cycles (.data claim low))
      (answered : WaitsUntil Answered next.bus waiting high)
      (soon : waiting.length < 256)
      (ready : high.trdyN = .zero)
      (narrow : claim.ack64N ≠ .zero)
      (lowNarrow : low.ack64N ≠ .zero)
      (highNarrow : high.ack64N ≠ .zero) :
      Reading64 callbacks stack addr ben pci
        (starting ++ (cycles ++ next :: waiting)) (some (joinLines low high))
  | retry
      {pci addressed after : SimbusPci User Handle}
      {starting cycles cyclesLater : List ClockCycle}
      {release : ClockCycle}
      {outs outsReleased : List BiSignals}
      {refused : Unit ⊕ Except (BitVec 64) (BitVec 64)}
      {answer : Option (Fin 64 → Logic4)}
      (started : ClockRun
        ((startTransaction callbacks stack addr 0xf6 ben true false).start pci)
        starting outs () addressed)
      (answers : Answers addressed.seen cycles .retry)
      (released : ClockRun ((read64Attempt callbacks stack addr ben).start pci)
        (starting ++ (cycles ++ [release])) outsReleased refused after)
      (later : Reading64 callbacks stack addr ben after cyclesLater answer) :
      Reading64 callbacks stack addr ben pci
        (starting ++ (cycles ++ [release]) ++ cyclesLater) answer

/-- What a read should return. -/
def exactResult
    {width : Nat}
    (answer : Option (Fin width → Logic4)) : BitVec width :=
  match answer with
  | none => BitVec.allOnes width
  | some lines => exactWord lines

/-- A 64-bit read returns what it should. -/
def Exact64 (answer : Option (Fin 64 → Logic4)) : Prop :=
  match answer with
  | none => False
  | some lines => Known lines ∨ ∀ line, lines line ≠ .zero

/-! ## One access of a 32-bit read -/

variable {callbacks : Callbacks User Handle}
variable {stack : Nat}
variable {addr : BitVec 64}
variable {ben resultx : BitVec 32}
variable {pci addressed : SimbusPci User Handle}
variable {starting cycles : List ClockCycle}
variable {next release : ClockCycle}
variable {outs : List BiSignals}
variable {claim last : BiSignals}

/-- `__generic_pci_read32` after the address phases. -/
def read32Data
    (resultx : BitVec 32) : Call User Handle (Int × BitVec 32 × BitVec 32) := do
  if (← waitForDevsel) < 0 then
    undriveBus
    pciNextPosedge
    return (gpciMasterAbort, 0xffffffff, resultx)
  else
    Program.modifyState endReadFrame
    match ← waitForRead with
    | .error rc =>
        releaseBus
        return (rc, 0xffffffff, 0xffffffff)
    | .ok word =>
        pcixEndRead
        releaseBus
        return (0, word.val.setWidth 32, word.valx.setWidth 32)

theorem read32Data_noResponse
    (release : ClockCycle)
    (answers : Answers pci.seen cycles .noResponse)
    (atEdge : pci.pciClk = .one) :
    EndsAfter (read32Data resultx) pci (cycles ++ [release])
      fun result _ => result = (gpciMasterAbort, 0xffffffff, resultx) := by
  cases answers with
  | noResponse missed others counted =>
      refine .bind (waitForDevsel_missed missed others counted atEdge) ?_
      rintro _ state ⟨rfl, rfl⟩
      refine .drive (.clock release ?_ (.pure rfl))
      exact clockedAll_pciClk atEdge cycles

/-- A client that has seen DEVSEL# and waits for its data. -/
theorem claimed_state
    {selecting : List ClockCycle}
    (claimed : WaitsUntil HasDevsel pci.seen selecting claim)
    (atEdge : pci.pciClk = .one) :
    (endReadFrame (acceptAck64 (pci.clockedAll selecting))).seen = claim ∧
      (endReadFrame (acceptAck64 (pci.clockedAll selecting))).pciClk = .one :=
  ⟨(acceptAck64_seen _).trans (claimed.seen rfl),
    (acceptAck64_pciClk _).trans (clockedAll_pciClk atEdge selecting)⟩

theorem read32Data_retry
    (release : ClockCycle)
    (answers : Answers pci.seen cycles .retry)
    (atEdge : pci.pciClk = .one) :
    EndsAfter (read32Data resultx) pci (cycles ++ [release])
      fun result final =>
        result = (gpciTargetRetry, 0xffffffff, 0xffffffff) ∧
          final.pciClk = .one := by
  cases answers with
  | @retry selecting waiting claim last claimed inTime answered soon refused =>
      rw [List.append_assoc]
      refine .bind (waitForDevsel_claimed claimed inTime atEdge) ?_
      rintro _ state ⟨rfl, rfl⟩
      obtain ⟨isSeen, stillEdge⟩ := claimed_state claimed atEdge
      rw [← isSeen] at answered
      refine .modify (.bind (waitForReadLoop_answered answered soon stillEdge) ?_)
      rintro _ state ⟨rfl, rfl⟩
      rw [if_neg refused]
      have finalEdge := clockedAll_pciClk stillEdge waiting
      refine .bind (releaseBus_endsAfter finalEdge release) ?_
      rintro _ state rfl
      exact .pure ⟨rfl, clocked_pciClk _ release⟩

/-- The words of a 32-bit read are those of the low lines. -/
theorem collectRead_low (isSeen : pci.seen = last) :
    (collectRead pci).val.setWidth 32 = raisedWord (lowLines last) ∧
      (collectRead pci).valx.setWidth 32 = unknownMask (lowLines last) := by
  subst isSeen
  constructor
  · apply BitVec.eq_of_getElem_eq
    intro line bounded
    have inside : line < 64 := by omega
    rw [BitVec.getElem_setWidth, BitVec.getLsbD_eq_getElem inside, collectRead,
      getElem_sampleWord, raisedWord, getElem_sampleWord]
    simp only [bounded, lowLines, lowLine, true_or, decide_true, true_and]
    rfl
  · apply BitVec.eq_of_getElem_eq
    intro line bounded
    have inside : line < 64 := by omega
    rw [BitVec.getElem_setWidth, BitVec.getLsbD_eq_getElem inside, collectRead,
      getElem_sampleWord, unknownMask, getElem_sampleWord]
    simp only [bounded, lowLines, lowLine, true_or, decide_true, true_and]
    rfl

theorem read32Data_data
    {tail : List ClockCycle}
    (answers : Answers pci.seen cycles (.data claim last))
    (long : 3 ≤ tail.length)
    (atEdge : pci.pciClk = .one) :
    ∃ count, EndsAfter (read32Data resultx) pci (cycles ++ tail.take count)
      fun result _ =>
        result = (0, raisedWord (lowLines last),
          unknownMask (lowLines last)) := by
  obtain ⟨first, second, third, tail, rfl⟩ :
      ∃ first second third rest, tail = first :: second :: third :: rest := by
    match tail, long with
    | first :: second :: third :: rest, _ =>
        exact ⟨first, second, third, rest, rfl⟩
  cases answers with
  | @data selecting waiting claim last claimed inTime answered soon ready =>
      obtain ⟨isSeen, stillEdge⟩ := claimed_state claimed atEdge
      have lastSeen := answered.seen isSeen
      have finalEdge := clockedAll_pciClk stillEdge waiting
      obtain ⟨val, valx⟩ := collectRead_low lastSeen
      rw [← isSeen] at answered
      let reading := endReadFrame (acceptAck64 (pci.clockedAll selecting))
      let final := reading.clockedAll waiting
      have reads (clocks : List ClockCycle)
          (release : ClockCycle)
          (ends : EndsAfter (pcixEndRead : Call User Handle Unit) final clocks
            fun _ state => state.pciClk = .one) :
          EndsAfter (read32Data resultx) pci
            (selecting ++ waiting ++ (clocks ++ [release])) fun result _ =>
              result = (0, raisedWord (lowLines last),
                unknownMask (lowLines last)) := by
        rw [List.append_assoc]
        refine .bind (waitForDevsel_claimed claimed inTime atEdge) ?_
        rintro _ state ⟨rfl, rfl⟩
        refine .modify
          (.bind (waitForReadLoop_answered answered soon stillEdge) ?_)
        rintro _ state ⟨rfl, rfl⟩
        rw [if_pos ready]
        refine .bind ends fun _ ended endedEdge => ?_
        refine .bind (releaseBus_endsAfter endedEdge release) fun _ _ _ => ?_
        rw [← val, ← valx]
        exact .pure rfl
      by_cases isPcix : pcixMode final = true
      · refine ⟨3, reads [first, second] third (.getState ?_)⟩
        rw [if_pos isPcix]
        exact .clock first finalEdge (.drive (.lastClock second
          (clocked_pciClk final first) (clocked_pciClk _ second)))
      · refine ⟨1, reads [] first (.getState ?_)⟩
        rw [if_neg isPcix]
        exact .pure finalEdge

theorem genericPciRead32_eq :
    genericPciRead32 callbacks stack addr 0xf6 ben resultx = (do
      startTransaction callbacks stack addr 0xf6 ben false false
      drive fun out => releaseAd (driveLowBe (ben.setWidth 4) out)
      pciNextPosedge
      read32Data resultx) :=
  rfl

/-- The client at the first edge at which it looks for DEVSEL#. -/
def looking
    (ben : BitVec 32)
    (addressed : SimbusPci User Handle)
    (next : ClockCycle) : SimbusPci User Handle :=
  (addressed.driving fun out =>
    releaseAd (driveLowBe (ben.setWidth 4) out)).clocked next

theorem looking_pciClk : (looking ben addressed next).pciClk = .one :=
  clocked_pciClk _ next

theorem looking_seen
    (ben : BitVec 32)
    (addressed : SimbusPci User Handle)
    (next : ClockCycle) :
    (looking ben addressed next).seen = next.bus :=
  clocked_seen _ next

/-- An access is its address phases, a clock and the answer. -/
theorem genericPciRead32_endsAfter
    {post : Int × BitVec 32 × BitVec 32 → SimbusPci User Handle → Prop}
    (atEdge : pci.pciClk = .one)
    (started : ClockRun
      ((startTransaction callbacks stack addr 0xf6 ben false false).start pci)
      starting outs () addressed)
    (data : EndsAfter (read32Data resultx) (looking ben addressed next)
      cycles post) :
    EndsAfter (genericPciRead32 callbacks stack addr 0xf6 ben resultx) pci
      (starting ++ next :: cycles) post := by
  have addressedEdge := (started.addressed atEdge).pciClk
  rw [genericPciRead32_eq]
  refine .bind (.of_run started) ?_
  rintro _ state ⟨_, rfl⟩
  exact .drive (.clock next addressedEdge data)

/-! ## The 32-bit read -/

/-- The body of the loop of `simbus_pci_read32_xz`. -/
def read32Turn
    (callbacks : Callbacks User Handle)
    (stack : Nat)
    (addr : BitVec 64)
    (ben valx : BitVec 32) :
    Call User Handle (BitVec 32 ⊕ Int × BitVec 32 × BitVec 32) := do
  let (rc, val, valx) ← genericPciRead32 callbacks stack addr 0xf6 ben valx
  if rc = gpciTargetRetry then
    return .inl valx
  else if 0 ≤ rc then
    return .inr (0, val, valx)
  else
    return .inr (simbusPciError, val, valx)

/-- The word and the mask a 32-bit read ends with. -/
def Reads32
    (answer : Option (Fin 32 → Logic4))
    (result : Int × BitVec 32 × BitVec 32) : Prop :=
  match answer with
  | none => result.2.2 ≠ 0
  | some lines => result.2 = (raisedWord lines, unknownMask lines)

/-- A turn that ends the loop. -/
theorem read32Turn_done
    {result : Int × BitVec 32 × BitVec 32}
    {valx : BitVec 32}
    (access : EndsAfter (genericPciRead32 callbacks stack addr 0xf6 ben valx)
      pci cycles fun accessed _ => accessed = result)
    (notRefused : result.1 ≠ gpciTargetRetry) :
    EndsAfter (read32Turn callbacks stack addr ben valx) pci cycles
      fun outcome _ => ∃ rc, outcome = .inr (rc, result.2) := by
  obtain ⟨rc, val, valxRead⟩ := result
  refine .bindDone access ?_
  rintro accessed state rfl
  by_cases isDone : 0 ≤ rc
  · simp only [notRefused, isDone, if_true, if_false]
    exact .pure ⟨0, rfl⟩
  · simp only [notRefused, isDone, if_false]
    exact .pure ⟨simbusPciError, rfl⟩

theorem simbusPciRead32Xz_endsAfter
    {answer : Option (Fin 32 → Logic4)}
    {tail : List ClockCycle}
    (reading : Reading32 callbacks stack addr ben pci cycles answer)
    (long : 3 ≤ tail.length)
    (atEdge : pci.pciClk = .one) :
    ∃ count, EndsAfter
      (Program.loop (read32Turn callbacks stack addr ben) 0xffffffff) pci
      (cycles ++ tail.take count) fun result _ => Reads32 answer result := by
  induction reading with
  | @noResponse pci addressed starting cycles next outs started answers =>
      obtain ⟨first, tail, rfl⟩ : ∃ first rest, tail = first :: rest :=
        List.exists_cons_of_length_pos (by omega)
      rw [← looking_seen ben addressed] at answers
      have access : EndsAfter
          (genericPciRead32 callbacks stack addr 0xf6 ben 0xffffffff) pci _ _ :=
        genericPciRead32_endsAfter atEdge started
          (read32Data_noResponse first answers looking_pciClk)
      have turn := read32Turn_done access (by decide)
      refine ⟨1, ?_⟩
      rw [List.append_assoc, List.cons_append]
      refine .loopDone (turn.mono ?_)
      rintro _ state ⟨rc, rfl⟩
      refine ⟨_, rfl, ?_⟩
      show (0xffffffff : BitVec 32) ≠ 0
      decide
  | @data pci addressed starting cycles next outs claim last started answers =>
      rw [← looking_seen ben addressed] at answers
      obtain ⟨count, data⟩ := @read32Data_data _ _ 0xffffffff _ _ _ _ tail
        answers long looking_pciClk
      have access := genericPciRead32_endsAfter atEdge started data
      have turn := read32Turn_done access (by simp [gpciTargetRetry])
      refine ⟨count, ?_⟩
      rw [List.append_assoc, List.cons_append]
      refine .loopDone (turn.mono ?_)
      rintro _ state ⟨rc, rfl⟩
      exact ⟨_, rfl, rfl⟩
  | @retry pci addressed after starting cycles cyclesLater next release outs
      outsReleased refused answer started answers released later
      inductionHypothesis =>
      rw [← looking_seen ben addressed] at answers
      have access : EndsAfter
          (genericPciRead32 callbacks stack addr 0xf6 ben 0xffffffff) pci _ _ :=
        genericPciRead32_endsAfter atEdge started
          (read32Data_retry release answers looking_pciClk)
      obtain ⟨rfl, afterEdge⟩ := access.reached released
      have turn : EndsAfter (read32Turn callbacks stack addr ben 0xffffffff) pci
          (starting ++ next :: (cycles ++ [release])) fun outcome state =>
            outcome = .inl 0xffffffff ∧ state = after := by
        refine .bindDone (.of_run released) ?_
        rintro _ state ⟨rfl, rfl⟩
        exact .pure ⟨rfl, rfl⟩
      obtain ⟨outsTurn, _, _, run, rfl, rfl⟩ := turn
      obtain ⟨count, ends⟩ := inductionHypothesis afterEdge
      refine ⟨count, ?_⟩
      rw [List.append_assoc]
      exact .loopTurn run (by simp) ends

/-- The word of `simbus_pci_read32` is the one it should be. -/
theorem simbusPciRead32_endsAfter
    {answer : Option (Fin 32 → Logic4)}
    {tail : List ClockCycle}
    (reading : Reading32 callbacks stack addr ben pci cycles answer)
    (long : 3 ≤ tail.length)
    (atEdge : pci.pciClk = .one) :
    ∃ count, EndsAfter (simbusPciRead32 callbacks stack addr ben) pci
      (cycles ++ tail.take count) fun val _ => val = exactResult answer := by
  obtain ⟨count, reads⟩ := simbusPciRead32Xz_endsAfter reading long atEdge
  refine ⟨count, .bindDone reads ?_⟩
  rintro ⟨rc, val, valx⟩ state isRead
  refine .pure ?_
  cases answer with
  | none =>
      exact if_pos isRead
  | some lines =>
      obtain ⟨rfl, rfl⟩ := Prod.mk.inj isRead
      show (if unknownMask lines ≠ 0 then _ else _) = exactWord lines
      by_cases known : Known lines
      · rw [if_neg (not_not.mpr (unknownMask_eq_zero_iff.mpr known)),
          raisedWord_known known, exactWord, if_pos known]
      · rw [if_pos (mt unknownMask_eq_zero_iff.mp known), exactWord,
          if_neg known]
        rfl

/-! ## One attempt of a 64-bit read -/

/-- A client that drives the byte enables of a 64-bit read. -/
def requesting
    (ben : BitVec 32)
    (addressed : SimbusPci User Handle) : SimbusPci User Handle :=
  addressed.driving fun out => releaseAd (driveBe (ben.setWidth 8) out)

/-- The second word of a read whose target takes 32 bits at a time. -/
def read64High
    (word : ReadWord) :
    Call User Handle (Unit ⊕ Except (BitVec 64) (BitVec 64)) := do
  if (← Program.getState).out.frameN ≠ .zero then
    return .inr (.ok word.val)
  else
    drive fun out => { out with frameN := .one, req64N := .one }
    pciNextPosedge
    match ← waitForRead with
    | .error _ => Program.abort
    | .ok high => return .inr (.ok (word.val ||| (high.val <<< 32)))

/-- The words of a read after its DEVSEL#. -/
def read64Words :
    Call User Handle (Unit ⊕ Except (BitVec 64) (BitVec 64)) := do
  match ← waitForRead with
  | .error _ =>
      releaseBus
      return .inl ()
  | .ok word => read64High word

/-- `simbus_pci_read64` after the address phases. -/
def read64Data :
    Call User Handle (Unit ⊕ Except (BitVec 64) (BitVec 64)) := do
  if (← waitForDevsel) < 0 then
    return .inr (.error 0xffffffffffff)
  else
    read64Words

theorem read64Attempt_eq :
    read64Attempt callbacks stack addr ben = (do
      startTransaction callbacks stack addr 0xf6 ben true false
      drive fun out => releaseAd (driveBe (ben.setWidth 8) out)
      read64Data) :=
  rfl

/-- An attempt is its address phases and the answer. -/
theorem read64Attempt_endsAfter
    {post : Unit ⊕ Except (BitVec 64) (BitVec 64) → SimbusPci User Handle →
      Prop}
    (started : ClockRun
      ((startTransaction callbacks stack addr 0xf6 ben true false).start pci)
      starting outs () addressed)
    (data : EndsAfter read64Data (requesting ben addressed) cycles post) :
    EndsAfter (read64Attempt callbacks stack addr ben) pci (starting ++ cycles)
      post := by
  rw [read64Attempt_eq]
  refine .bind (.of_run started) ?_
  rintro _ state ⟨_, rfl⟩
  exact .drive data

/-- A client that has seen DEVSEL# of a 64-bit read. -/
structure Claimed64
    (claim : BiSignals)
    (pci : SimbusPci User Handle) : Prop where
  seen : pci.seen = claim
  pciClk : pci.pciClk = .one
  frameN : pci.out.frameN = if claim.ack64N = .zero then .one else .zero

theorem requesting_claimed
    {selecting : List ClockCycle}
    (ben : BitVec 32)
    (isAddressed : Addressed true false .one addressed)
    (claimed : WaitsUntil HasDevsel addressed.seen selecting claim) :
    Claimed64 claim
      (acceptAck64 ((requesting ben addressed).clockedAll selecting)) := by
  let waited := (requesting ben addressed).clockedAll selecting
  have isSeen : waited.seen = claim := claimed.seen rfl
  have requestEdge : (requesting ben addressed).pciClk = .one :=
    isAddressed.pciClk
  have atEdge := clockedAll_pciClk requestEdge selecting
  obtain ⟨par, par64, sameDrive⟩ :=
    clockedAll_sameDrive (requesting ben addressed) selecting
  have req64N : waited.out.req64N = .zero :=
    (congrArg BiSignals.req64N sameDrive).trans isAddressed.req64N
  have frameN : waited.out.frameN = .zero :=
    (congrArg BiSignals.frameN sameDrive).trans (isAddressed.frameN (.inl rfl))
  refine ⟨(acceptAck64_seen waited).trans isSeen,
    (acceptAck64_pciClk waited).trans atEdge, ?_⟩
  unfold acceptAck64
  by_cases wide : claim.ack64N = .zero
  · rw [if_pos wide, if_pos ⟨req64N, isSeen.symm ▸ wide⟩]
  · rw [if_neg wide, if_neg fun both => wide (isSeen ▸ both.2)]
    exact frameN

/-- A target has claimed the transaction in time. -/
theorem read64Data_claimed
    {selecting later : List ClockCycle}
    {post : Unit ⊕ Except (BitVec 64) (BitVec 64) → SimbusPci User Handle →
      Prop}
    (claimed : WaitsUntil HasDevsel pci.seen selecting claim)
    (inTime : selecting.length ≤ 3)
    (atEdge : pci.pciClk = .one)
    (words : EndsAfter read64Words (acceptAck64 (pci.clockedAll selecting))
      later post) :
    EndsAfter read64Data pci (selecting ++ later) post := by
  refine .bind (waitForDevsel_claimed claimed inTime atEdge) ?_
  rintro _ state ⟨rfl, rfl⟩
  exact words

theorem read64Data_noResponse
    (answers : Answers pci.seen cycles .noResponse)
    (atEdge : pci.pciClk = .one) :
    EndsAfter read64Data pci cycles
      fun result _ => result = .inr (.error 0xffffffffffff) := by
  cases answers with
  | noResponse missed others counted =>
      refine .bindDone (waitForDevsel_missed missed others counted atEdge) ?_
      rintro _ state ⟨rfl, rfl⟩
      exact .pure rfl

theorem read64Words_retry
    {waiting : List ClockCycle}
    (release : ClockCycle)
    (answered : WaitsUntil Answered pci.seen waiting last)
    (soon : waiting.length < 256)
    (refused : last.trdyN ≠ .zero)
    (atEdge : pci.pciClk = .one) :
    EndsAfter read64Words pci (waiting ++ [release]) fun result final =>
      result = .inl () ∧ final.pciClk = .one := by
  refine .bind (waitForReadLoop_answered answered soon atEdge) ?_
  rintro _ state ⟨rfl, rfl⟩
  rw [if_neg refused]
  have finalEdge := clockedAll_pciClk atEdge waiting
  refine .bindDone (releaseBus_endsAfter finalEdge release) ?_
  rintro _ state rfl
  exact .pure ⟨rfl, clocked_pciClk _ release⟩

theorem read64Words_ready
    {waiting later : List ClockCycle}
    {post : Unit ⊕ Except (BitVec 64) (BitVec 64) → SimbusPci User Handle →
      Prop}
    (answered : WaitsUntil Answered pci.seen waiting last)
    (soon : waiting.length < 256)
    (ready : last.trdyN = .zero)
    (atEdge : pci.pciClk = .one)
    (high : EndsAfter (read64High (collectRead (pci.clockedAll waiting)))
      (pci.clockedAll waiting) later post) :
    EndsAfter read64Words pci (waiting ++ later) post := by
  refine .bind (waitForReadLoop_answered answered soon atEdge) ?_
  rintro _ state ⟨rfl, rfl⟩
  rw [if_pos ready]
  exact high

/-- The word on all lines. -/
theorem collectRead_wide
    (isSeen : pci.seen = last)
    (wide : last.ack64N = .zero) :
    (collectRead pci).val = raisedWord last.ad := by
  subst isSeen
  apply BitVec.eq_of_getElem_eq
  intro line bounded
  rw [collectRead, getElem_sampleWord, raisedWord, getElem_sampleWord]
  simp [wide]

/-- Two words read one after the other are those of the joined lines. -/
theorem collectRead_join
    {later : SimbusPci User Handle}
    {low high : BiSignals}
    (lowSeen : pci.seen = low)
    (highSeen : later.seen = high)
    (lowNarrow : low.ack64N ≠ .zero)
    (highNarrow : high.ack64N ≠ .zero) :
    (collectRead pci).val ||| (collectRead later).val <<< 32 =
      raisedWord (joinLines low high) := by
  subst lowSeen highSeen
  apply BitVec.eq_of_getElem_eq
  intro line bounded
  rw [BitVec.getElem_or, BitVec.getElem_shiftLeft, raisedWord,
    getElem_sampleWord, collectRead, collectRead, getElem_sampleWord]
  by_cases isLow : line < 32
  · simp [isLow, joinLines]
  · have inside : line - 32 < 64 := by omega
    have isHigh : line - 32 < 32 := by omega
    rw [getElem_sampleWord]
    simp [isLow, isHigh, lowNarrow, joinLines]

/-- FRAME# stays as it is while a client waits. -/
theorem clockedAll_frameN
    {frameN : Logic4}
    (isDriven : pci.out.frameN = frameN)
    (cycles : List ClockCycle) :
    (pci.clockedAll cycles).out.frameN = frameN := by
  obtain ⟨_, _, sameDrive⟩ := clockedAll_sameDrive pci cycles
  exact (congrArg BiSignals.frameN sameDrive).trans isDriven

/-- The data of a read whose target takes 64 bits. -/
theorem read64Data_acknowledged
    (isAddressed : Addressed true false .one addressed)
    (answers : Answers addressed.seen cycles (.data claim last))
    (wide : claim.ack64N = .zero)
    (stillWide : last.ack64N = .zero) :
    EndsAfter read64Data (requesting ben addressed) cycles fun result final =>
      result = .inr (.ok (raisedWord last.ad)) ∧ final.pciClk = .one := by
  cases answers with
  | @data selecting waiting claim last claimed inTime answered soon ready =>
      obtain ⟨isSeen, atEdge, frameN⟩ :=
        requesting_claimed ben isAddressed claimed
      rw [if_pos wide] at frameN
      have lastSeen := answered.seen isSeen
      have lastFrame := clockedAll_frameN frameN waiting
      rw [← isSeen] at answered
      refine read64Data_claimed claimed inTime isAddressed.pciClk ?_
      rw [← List.append_nil waiting]
      refine read64Words_ready answered soon ready atEdge (.getState ?_)
      rw [if_pos (by rw [lastFrame]; decide), collectRead_wide lastSeen stillWide]
      exact .pure ⟨rfl, clockedAll_pciClk atEdge waiting⟩

/-- The data of a read whose target takes 32 bits at a time. -/
theorem read64Data_twoWords
    {waitingHigh : List ClockCycle}
    {low high : BiSignals}
    (isAddressed : Addressed true false .one addressed)
    (answers : Answers addressed.seen cycles (.data claim low))
    (answeredHigh : WaitsUntil Answered next.bus waitingHigh high)
    (soonHigh : waitingHigh.length < 256)
    (readyHigh : high.trdyN = .zero)
    (narrow : claim.ack64N ≠ .zero)
    (lowNarrow : low.ack64N ≠ .zero)
    (highNarrow : high.ack64N ≠ .zero) :
    EndsAfter read64Data (requesting ben addressed)
      (cycles ++ next :: waitingHigh) fun result final =>
        result = .inr (.ok (raisedWord (joinLines low high))) ∧
          final.pciClk = .one := by
  cases answers with
  | @data selecting waiting claim low claimed inTime answered soon ready =>
      obtain ⟨isSeen, atEdge, frameN⟩ :=
        requesting_claimed ben isAddressed claimed
      rw [if_neg narrow] at frameN
      have lowSeen := answered.seen isSeen
      have lowFrame := clockedAll_frameN frameN waiting
      have lowEdge := clockedAll_pciClk atEdge waiting
      rw [← isSeen] at answered
      rw [List.append_assoc]
      refine read64Data_claimed claimed inTime isAddressed.pciClk ?_
      refine read64Words_ready answered soon ready atEdge (.getState ?_)
      rw [if_neg (by rw [lowFrame]; decide)]
      refine .drive (.clock next lowEdge ?_)
      generalize isLater : SimbusPci.clocked _ next = later
      have laterSeen : later.seen = next.bus := isLater ▸ clocked_seen _ next
      have laterEdge : later.pciClk = .one := isLater ▸ clocked_pciClk _ next
      have highSeen := answeredHigh.seen laterSeen
      rw [← laterSeen] at answeredHigh
      refine .bindDone
        (waitForReadLoop_answered answeredHigh soonHigh laterEdge) ?_
      rintro _ state ⟨rfl, rfl⟩
      rw [if_pos readyHigh]
      refine .pure ⟨?_, clockedAll_pciClk laterEdge waitingHigh⟩
      rw [collectRead_join lowSeen highSeen lowNarrow highNarrow]

/-- A target that asks for a retry. -/
theorem read64Data_retry
    (release : ClockCycle)
    (isAddressed : Addressed true false .one addressed)
    (answers : Answers addressed.seen cycles .retry) :
    EndsAfter read64Data (requesting ben addressed) (cycles ++ [release])
      fun result final => result = .inl () ∧ final.pciClk = .one := by
  cases answers with
  | @retry selecting waiting claim last claimed inTime answered soon refused =>
      obtain ⟨isSeen, atEdge, -⟩ :=
        requesting_claimed ben isAddressed claimed
      rw [← isSeen] at answered
      rw [List.append_assoc]
      refine read64Data_claimed claimed inTime isAddressed.pciClk ?_
      exact read64Words_retry release answered soon refused atEdge

/-! ## The 64-bit read -/

/-- The word a 64-bit read returns. -/
def returned64 (answer : Option (Fin 64 → Logic4)) : BitVec 64 :=
  match answer with
  | none => 0xffffffffffff
  | some lines => raisedWord lines

theorem returned64_exact_iff {answer : Option (Fin 64 → Logic4)} :
    returned64 answer = exactResult answer ↔ Exact64 answer := by
  cases answer with
  | none =>
      show (0xffffffffffff : BitVec 64) = BitVec.allOnes 64 ↔ False
      decide
  | some lines =>
      exact raisedWord_exact_iff

/-- What the loop of a 64-bit read ends with. -/
def Attempted64
    (answer : Option (Fin 64 → Logic4))
    (outcome : Except (BitVec 64) (BitVec 64))
    (final : SimbusPci User Handle) : Prop :=
  match answer with
  | none => outcome = .error 0xffffffffffff
  | some lines => outcome = .ok (raisedWord lines) ∧ final.pciClk = .one

/-- An attempt that ends the loop. -/
theorem read64Attempt_done
    {post : Except (BitVec 64) (BitVec 64) → SimbusPci User Handle → Prop}
    (started : ClockRun
      ((startTransaction callbacks stack addr 0xf6 ben true false).start pci)
      starting outs () addressed)
    (data : EndsAfter read64Data (requesting ben addressed) cycles
      fun result final =>
        ∃ outcome, result = .inr outcome ∧ post outcome final) :
    EndsAfter
      (Program.loop (fun _ => read64Attempt callbacks stack addr ben) ()) pci
      (starting ++ cycles) post := by
  exact .loopDone (read64Attempt_endsAfter started data)

theorem read64Loop_endsAfter
    {answer : Option (Fin 64 → Logic4)}
    (reading : Reading64 callbacks stack addr ben pci cycles answer)
    (atEdge : pci.pciClk = .one) :
    EndsAfter
      (Program.loop (fun _ => read64Attempt callbacks stack addr ben) ()) pci
      cycles (Attempted64 answer) := by
  induction reading with
  | @noResponse pci addressed starting cycles outs started answers =>
      have isAddressed := started.addressed atEdge
      have data : EndsAfter read64Data (requesting ben addressed) cycles _ :=
        read64Data_noResponse answers isAddressed.pciClk
      refine read64Attempt_done started (data.mono ?_)
      rintro _ state rfl
      exact ⟨_, rfl, rfl⟩
  | @acknowledged pci addressed starting cycles outs claim last started answers
      wide stillWide =>
      have isAddressed := started.addressed atEdge
      have data : EndsAfter read64Data (requesting ben addressed) cycles _ :=
        read64Data_acknowledged isAddressed answers wide stillWide
      refine read64Attempt_done started (data.mono ?_)
      rintro _ state ⟨rfl, finalEdge⟩
      exact ⟨_, rfl, rfl, finalEdge⟩
  | @twoWords pci addressed starting cycles waiting next outs claim low high
      started answers answered soon ready narrow lowNarrow highNarrow =>
      have isAddressed := started.addressed atEdge
      have data : EndsAfter read64Data (requesting ben addressed)
          (cycles ++ next :: waiting) _ :=
        read64Data_twoWords isAddressed answers answered soon ready narrow
          lowNarrow highNarrow
      refine read64Attempt_done started (data.mono ?_)
      rintro _ state ⟨rfl, finalEdge⟩
      exact ⟨_, rfl, rfl, finalEdge⟩
  | @retry pci addressed after starting cycles cyclesLater release outs
      outsReleased refused answer started answers released later
      inductionHypothesis =>
      have isAddressed := started.addressed atEdge
      have data : EndsAfter read64Data (requesting ben addressed)
          (cycles ++ [release]) _ :=
        read64Data_retry release isAddressed answers
      have attempt := read64Attempt_endsAfter started data
      obtain ⟨rfl, afterEdge⟩ := attempt.reached released
      exact .loopTurn released (by simp) (inductionHypothesis afterEdge)

theorem simbusPciRead64_endsAfter
    {answer : Option (Fin 64 → Logic4)}
    {tail : List ClockCycle}
    (reading : Reading64 callbacks stack addr ben pci cycles answer)
    (long : 0 < tail.length)
    (atEdge : pci.pciClk = .one) :
    ∃ count, EndsAfter (simbusPciRead64 callbacks stack addr ben) pci
      (cycles ++ tail.take count) fun val _ => val = returned64 answer := by
  obtain ⟨release, tail, rfl⟩ := List.exists_cons_of_length_pos long
  have attempted := read64Loop_endsAfter reading atEdge
  cases answer with
  | none =>
      refine ⟨0, .bind attempted ?_⟩
      rintro _ state rfl
      exact .pure rfl
  | some lines =>
      refine ⟨1, .bind attempted ?_⟩
      rintro _ state ⟨rfl, finalEdge⟩
      refine .bindDone (releaseBus_endsAfter finalEdge release) ?_
      rintro _ final rfl
      exact .pure rfl

/-! ## Both reads -/

/--
A 32-bit read returns what it should, and a 64-bit read does so if and only if a
target answers with data in which no bit is unknown or no bit is 0.
-/
theorem simbusPciRead_iff
    {pci32 pci64 : SimbusPci User Handle}
    {cycles32 cycles64 tail32 tail64 : List ClockCycle}
    {answer32 : Option (Fin 32 → Logic4)}
    {answer64 : Option (Fin 64 → Logic4)}
    (reading32 : Reading32 callbacks stack addr ben pci32 cycles32 answer32)
    (reading64 : Reading64 callbacks stack addr ben pci64 cycles64 answer64)
    (long32 : 3 ≤ tail32.length)
    (long64 : 0 < tail64.length)
    (atEdge32 : pci32.pciClk = .one)
    (atEdge64 : pci64.pciClk = .one) :
    (∃ count, EndsAfter (simbusPciRead32 callbacks stack addr ben) pci32
      (cycles32 ++ tail32.take count) fun val _ =>
        val = exactResult answer32) ∧
    ((∃ count, EndsAfter (simbusPciRead64 callbacks stack addr ben) pci64
      (cycles64 ++ tail64.take count) fun val _ =>
        val = exactResult answer64) ↔ Exact64 answer64) := by
  refine ⟨simbusPciRead32_endsAfter reading32 long32 atEdge32, ?_⟩
  obtain ⟨count, returns⟩ :=
    simbusPciRead64_endsAfter reading64 long64 atEdge64
  rw [← returned64_exact_iff]
  constructor
  · rintro ⟨count', exact⟩
    obtain ⟨_, val, _, _, isReturned, isExact⟩ := returns.unique exact
    exact isReturned.symm.trans isExact
  · intro isExact
    exact ⟨count, returns.mono fun val _ isReturned =>
      isReturned.trans isExact⟩

/-! ## Reads on a granted bus -/

/-- A target that answers at once with zeros. -/
def zeroData : BiSignals :=
  { BiSignals.released with
    devselN := .zero
    trdyN := .zero
    ack64N := .zero
    ad := fun _ => .zero }

theorem zeroData_answers : Answers zeroData [] (.data zeroData zeroData) :=
  .data (.here (rfl : zeroData.devselN = .zero)) (by decide)
    (.here (.inl rfl)) (by decide) rfl

theorem readyMaster_reads32 :
    Reading32 noCallbacks 1 0 0 readyMaster
      [grantedClock zeroData, grantedClock zeroData]
      (some (lowLines zeroData)) := by
  obtain ⟨outs, _, addressed, started, -⟩ :=
    startTransaction_granted noCallbacks 0 0 0xf6 0 false false zeroData
      (by decide) readyMaster_ready rfl
  exact .data started zeroData_answers

theorem readyMaster_reads64 :
    Reading64 noCallbacks 1 0 0 readyMaster [grantedClock zeroData]
      (some zeroData.ad) := by
  obtain ⟨outs, _, addressed, started, isSeen⟩ :=
    startTransaction_granted noCallbacks 0 0 0xf6 0 true false zeroData
      (by decide) readyMaster_ready rfl
  have answers : Answers addressed.seen [] (.data zeroData zeroData) := by
    rw [isSeen]
    exact zeroData_answers
  exact .acknowledged started answers rfl rfl

/-- Both reads of zeros. -/
theorem simbusPciRead_zeroData :
    (∃ count, EndsAfter (simbusPciRead32 noCallbacks 1 0 0) readyMaster
      ([grantedClock zeroData, grantedClock zeroData] ++
        (List.replicate 3 (grantedClock zeroData)).take count)
      fun val _ => val = exactResult (some (lowLines zeroData))) ∧
    ∃ count, EndsAfter (simbusPciRead64 noCallbacks 1 0 0) readyMaster
      ([grantedClock zeroData] ++
        (List.replicate 3 (grantedClock zeroData)).take count)
      fun val _ => val = exactResult (some zeroData.ad) := by
  have long32 : 3 ≤ (List.replicate 3 (grantedClock zeroData)).length := by
    decide
  have long64 : 0 < (List.replicate 3 (grantedClock zeroData)).length := by
    decide
  obtain ⟨read32, read64⟩ := simbusPciRead_iff readyMaster_reads32
    readyMaster_reads64 long32 long64 rfl rfl
  exact ⟨read32, read64.mpr (.inl fun _ => .inl rfl)⟩

theorem readyMaster_aborts :
    Reading64 noCallbacks 1 0 0 readyMaster
      (grantedClock BiSignals.released ::
        List.replicate 3 (grantedClock BiSignals.released)) none := by
  obtain ⟨outs, _, addressed, started, isSeen⟩ :=
    startTransaction_granted noCallbacks 0 0 0xf6 0 true false
      BiSignals.released (by decide) readyMaster_ready rfl
  have missed : ¬ HasDevsel BiSignals.released :=
    (nofun : Logic4.z ≠ .zero)
  refine .noResponse started (.noResponse ?_ ?_ rfl)
  · rw [isSeen]
    exact missed
  · intro cycle isCycle
    obtain rfl : cycle = grantedClock BiSignals.released :=
      List.eq_of_mem_replicate (n := 3) isCycle
    exact missed

/-- A 64-bit read that nobody answers does not return all ones. -/
theorem simbusPciRead64_masterAbort :
    ¬ ∃ count, EndsAfter (simbusPciRead64 noCallbacks 1 0 0) readyMaster
      (grantedClock BiSignals.released ::
        List.replicate 3 (grantedClock BiSignals.released) ++
          [grantedClock BiSignals.released].take count)
      fun val _ => val = BitVec.allOnes 64 := by
  rintro ⟨count, allOnes⟩
  have long : 0 < [grantedClock BiSignals.released].length := Nat.one_pos
  obtain ⟨count', returns⟩ :=
    simbusPciRead64_endsAfter readyMaster_aborts long rfl
  obtain ⟨_, val, _, _, isReturned, isAllOnes⟩ := returns.unique allOnes
  exact absurd (isReturned.symm.trans isAllOnes) (by decide)

end

end Simbus.Pci
