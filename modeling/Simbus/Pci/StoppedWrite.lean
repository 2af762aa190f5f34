import Simbus.Pci.Selecting

/-!
# Write bursts that a target stops

A target takes a word at an edge where IRDY# and TRDY# are low.  It may stop a
burst at any word, with STOP# and with or without TRDY#.  The master looks for
STOP# only where it has seen TRDY#, and not at the first word of a burst.
-/

namespace Simbus.Pci

open FourValued Clocked

section

variable {User Handle Value Result : Type}

/-! ## The words a target takes -/

/-- The word on the low AD lines of a drive. -/
def lowWord (out : BiSignals) : BitVec 32 :=
  sampleWord fun line => out.ad (lowLine line)

/-- The words at the edges with IRDY# and TRDY#. -/
def takenWords : List BiSignals → List ClockCycle → List (BitVec 32)
  | out :: outs, cycle :: cycles =>
      if out.irdyN = .zero ∧ cycle.bus.trdyN = .zero then
        lowWord out :: takenWords outs cycles
      else
        takenWords outs cycles
  | _, _ => []

theorem takenWords_append
    {outs : List BiSignals}
    {cycles : List ClockCycle}
    (sameLength : outs.length = cycles.length)
    (outsLater : List BiSignals)
    (cyclesLater : List ClockCycle) :
    takenWords (outs ++ outsLater) (cycles ++ cyclesLater) =
      takenWords outs cycles ++ takenWords outsLater cyclesLater := by
  induction outs generalizing cycles with
  | nil =>
      obtain rfl := List.length_eq_zero_iff.mp sameLength.symm
      rfl
  | cons out outs inductionHypothesis =>
      cases cycles with
      | nil => cases sameLength
      | cons cycle cycles =>
          have rest := inductionHypothesis (Nat.succ.inj sameLength)
          simp only [List.cons_append, takenWords, rest]
          split <;> rfl

/-- A call ends after some cycles, in which these words are taken. -/
def EndsTaking
    (call : Call User Handle Value)
    (pci : SimbusPci User Handle)
    (cycles : List ClockCycle)
    (taken : List (BitVec 32))
    (post : Value → SimbusPci User Handle → Prop) : Prop :=
  ∃ outs value final, ClockRun (call.start pci) cycles outs value final ∧
    takenWords outs cycles = taken ∧ post value final

variable {pci : SimbusPci User Handle}
variable {cycle : ClockCycle}
variable {cycles cyclesLater : List ClockCycle}
variable {taken takenLater : List (BitVec 32)}
variable {post : Value → SimbusPci User Handle → Prop}
variable {next : Unit → Call User Handle Value}

theorem EndsTaking.bind
    {call : Call User Handle Result}
    {next : Result → Call User Handle Value}
    {middle : Result → SimbusPci User Handle → Prop}
    (first : EndsTaking call pci cycles taken middle)
    (later : ∀ result state, middle result state →
      EndsTaking (next result) state cyclesLater takenLater post) :
    EndsTaking (call >>= next) pci (cycles ++ cyclesLater)
      (taken ++ takenLater) post := by
  obtain ⟨outs, result, state, first, rfl, reached⟩ := first
  obtain ⟨outsLater, value, final, second, rfl, done⟩ :=
    later result state reached
  exact ⟨outs ++ outsLater, value, final, first.bind second,
    takenWords_append first.length outsLater cyclesLater, done⟩

/-- What follows a call may take no time. -/
theorem EndsTaking.bindDone
    {call : Call User Handle Result}
    {next : Result → Call User Handle Value}
    {middle : Result → SimbusPci User Handle → Prop}
    (first : EndsTaking call pci cycles taken middle)
    (later : ∀ result state, middle result state →
      EndsTaking (next result) state [] [] post) :
    EndsTaking (call >>= next) pci cycles taken post := by
  rw [← List.append_nil cycles, ← List.append_nil taken]
  exact first.bind later

theorem EndsTaking.pure
    {value : Value}
    (done : post value pci) :
    EndsTaking (Pure.pure value : Call User Handle Value) pci [] [] post :=
  ⟨[], value, pci, .done rfl, rfl, done⟩

theorem EndsTaking.modify
    {change : SimbusPci User Handle → SimbusPci User Handle}
    (later : EndsTaking (next ()) (change pci) cycles taken post) :
    EndsTaking (Program.modifyState change >>= next) pci cycles taken
      post := by
  obtain ⟨outs, value, final, later, takes, done⟩ := later
  refine ⟨outs, value, final, ?_, takes, done⟩
  rw [Program.start_bind, Program.start_modifyState, Behavior.finish_bind]
  exact later

theorem EndsTaking.getState
    {next : SimbusPci User Handle → Call User Handle Value}
    (later : EndsTaking (next pci) pci cycles taken post) :
    EndsTaking (Program.getState >>= next) pci cycles taken post := by
  obtain ⟨outs, value, final, later, takes, done⟩ := later
  refine ⟨outs, value, final, ?_, takes, done⟩
  rw [Program.start_bind, Program.start_getState, Behavior.finish_bind]
  exact later

theorem EndsTaking.mono
    {call : Call User Handle Value}
    {weaker : Value → SimbusPci User Handle → Prop}
    (ends : EndsTaking call pci cycles taken post)
    (implies : ∀ value state, post value state → weaker value state) :
    EndsTaking call pci cycles taken weaker := by
  obtain ⟨outs, value, final, run, takes, done⟩ := ends
  exact ⟨outs, value, final, run, takes, implies value final done⟩

/-- A master that puts a word on the bus, at an edge. -/
structure Sending (val : BitVec 32) (pci : SimbusPci User Handle) : Prop where
  atEdge : pci.pciClk = .one
  irdyN : pci.out.irdyN = .zero
  word : lowWord pci.out = val

variable {val : BitVec 32}

theorem Sending.clocked
    (sending : Sending val pci)
    (cycle : ClockCycle) :
    Sending val (pci.clocked cycle) where
  atEdge := clocked_pciClk pci cycle
  irdyN := (clocked_irdyN pci cycle).trans sending.irdyN
  word := by
    rw [lowWord, clocked_ad]
    exact sending.word

/-- The words taken at one edge. -/
def takenAt (val : BitVec 32) (bus : BiSignals) : List (BitVec 32) :=
  if bus.trdyN = .zero then [val] else []

/-- A clock with a word on the bus. -/
theorem EndsTaking.clock
    (sending : Sending val pci)
    (later : EndsTaking (next ()) (pci.clocked cycle) cycles taken post) :
    EndsTaking (pciNextPosedge >>= next) pci (cycle :: cycles)
      (takenAt val cycle.bus ++ taken) post := by
  obtain ⟨outs, value, final, later, rfl, done⟩ := later
  refine ⟨pci.out :: outs, value, final, ?_, ?_, done⟩
  · rw [Program.start_bind]
    exact later.posedge_bind sending.atEdge
  · rw [takenWords, takenAt, sending.word]
    simp only [sending.irdyN, true_and]
    split <;> rfl

/-- A clock with IRDY# high or released. -/
theorem EndsTaking.idleClock
    (atEdge : pci.pciClk = .one)
    (notReady : pci.out.irdyN ≠ .zero)
    (later : EndsTaking (next ()) (pci.clocked cycle) cycles taken post) :
    EndsTaking (pciNextPosedge >>= next) pci (cycle :: cycles) taken post := by
  obtain ⟨outs, value, final, later, rfl, done⟩ := later
  refine ⟨pci.out :: outs, value, final, ?_, ?_, done⟩
  · rw [Program.start_bind]
    exact later.posedge_bind atEdge
  · rw [takenWords, if_neg fun both => notReady both.1]

/-! ## A data phase -/

variable {claim answer : BiSignals}

/-- A word is taken at one edge, or after it. -/
theorem takenAt_once (val : BitVec 32) (bus : BiSignals) :
    takenAt val bus ++ (if bus.trdyN = .zero then [] else [val]) = [val] := by
  rw [takenAt]
  split <;> rfl

/-- Waiting for TRDY# with a word on the bus. -/
theorem untilTrdy_taken
    (sending : Sending val pci)
    (waits : WaitsUntil Answered pci.seen cycles answer)
    (ready : answer.trdyN = .zero) :
    EndsTaking pciNextPosedgeUntilTrdy pci cycles
      (if pci.seen.trdyN = .zero then [] else [val])
      fun _ final => Sending val final ∧ final.seen = answer := by
  generalize isSeen : pci.seen = bus at waits
  induction waits generalizing pci with
  | here passed =>
      rw [if_pos ready]
      have ends : decide (pci.seen.trdyN ≠ .zero) = false := by
        simp [isSeen, ready]
      refine ⟨[], (), pci, .done ?_, rfl, sending, isSeen⟩
      exact Program.start_whileDo_false ends
  | @later bus answer cycle cycles missed _ inductionHypothesis =>
      obtain ⟨notReady, notStopped⟩ := not_or.mp missed
      have goesOn : decide (pci.seen.trdyN ≠ .zero) = true := by
        simp [isSeen, notReady]
      have turn : (pciNextPosedgeUntilTrdy : Call User Handle Unit).start pci =
          (pciNextPosedge >>= fun _ => pciNextPosedgeUntilTrdy).start pci :=
        whileDo_posedge goesOn sending.atEdge
      have rest := inductionHypothesis (sending.clocked cycle) ready
        (clocked_seen pci cycle)
      have whole : EndsTaking
          (pciNextPosedge >>= fun _ => pciNextPosedgeUntilTrdy) pci
          (cycle :: cycles) _ _ := .clock sending rest
      rw [takenAt_once] at whole
      rw [if_neg notReady, EndsTaking, turn]
      exact whole

/-- A word that is put on the bus and waited for. -/
theorem dataPhase_taken
    (sending : Sending val pci)
    (waits : WaitsUntil Answered cycle.bus cycles answer)
    (ready : answer.trdyN = .zero) :
    EndsTaking (pciNextPosedge >>= fun _ => pciNextPosedgeUntilTrdy) pci
      (cycle :: cycles) [val]
      fun _ final => Sending val final ∧ final.seen = answer := by
  rw [← clocked_seen pci cycle] at waits
  have rest := untilTrdy_taken (sending.clocked cycle) waits ready
  have whole : EndsTaking
      (pciNextPosedge >>= fun _ => pciNextPosedgeUntilTrdy) pci
      (cycle :: cycles) _ _ := .clock sending rest
  rw [clocked_seen, takenAt_once] at whole
  exact whole

/-! ## The selection of a target -/

/-- A target selects itself or answers. -/
def Responds (bus : BiSignals) : Prop :=
  HasDevsel bus ∨ Answered bus

/-- A word is taken where the target is selected, or later. -/
theorem responds_once
    (val : BitVec 32)
    (selects : WaitsUntil Responds cycle.bus cycles claim) :
    takenAt val cycle.bus ++
        (if cycles = [] then [] else takenAt val claim) =
      takenAt val claim := by
  cases selects with
  | here _ => exact List.append_nil _
  | later missed _ =>
      have notReady : ¬ cycle.bus.trdyN = .zero :=
        fun ready => missed (.inr (.inl ready))
      rw [takenAt, if_neg notReady, if_neg (List.cons_ne_nil _ _)]
      rfl

theorem devselWithin_taken
    {count : Nat}
    (sending : Sending val pci)
    (selects : WaitsUntil Responds pci.seen cycles claim)
    (claimed : HasDevsel claim)
    (inTime : cycles.length ≤ count) :
    EndsTaking (devselWithin count) pci cycles
      (if cycles = [] then [] else takenAt val claim)
      fun found final =>
        found = true ∧ Sending val final ∧ final.seen = claim := by
  generalize isSeen : pci.seen = bus at selects
  induction selects generalizing pci count with
  | here _ =>
      have selected : pci.seen.devselN = .zero := isSeen ▸ claimed
      rw [if_pos rfl]
      cases count with
      | zero =>
          refine .getState (.pure ⟨?_, sending, isSeen⟩)
          exact decide_eq_true selected
      | succ count =>
          refine .getState ?_
          rw [if_pos selected]
          exact .pure ⟨rfl, sending, isSeen⟩
  | @later bus claim cycle cycles missed rest inductionHypothesis =>
      obtain ⟨count, rfl⟩ : ∃ before, count = before + 1 :=
        ⟨count - 1, by rw [List.length_cons] at inTime; omega⟩
      have unselected : ¬ pci.seen.devselN = .zero :=
        fun selected => missed (.inl (isSeen ▸ selected))
      have later := inductionHypothesis (sending.clocked cycle) claimed
        (Nat.le_of_succ_le_succ inTime) (clocked_seen pci cycle)
      refine .getState ?_
      rw [if_neg unselected, if_neg (List.cons_ne_nil _ _),
        ← responds_once val rest]
      exact .clock sending later

@[simp] theorem acceptAck64_irdyN (pci : SimbusPci User Handle) :
    (acceptAck64 pci).out.irdyN = pci.out.irdyN := by
  unfold acceptAck64
  split <;> rfl

@[simp] theorem acceptAck64_ad (pci : SimbusPci User Handle) :
    (acceptAck64 pci).out.ad = pci.out.ad := by
  unfold acceptAck64
  split <;> rfl

theorem Sending.acceptAck64
    (sending : Sending val pci) :
    Sending val (Pci.acceptAck64 pci) where
  atEdge := (acceptAck64_pciClk pci).trans sending.atEdge
  irdyN := (acceptAck64_irdyN pci).trans sending.irdyN
  word := by
    rw [lowWord, acceptAck64_ad]
    exact sending.word

/-- The first word is put on the bus, and a target is selected. -/
theorem firstClock_taken
    (sending : Sending val pci)
    (selects : WaitsUntil Responds cycle.bus cycles claim)
    (claimed : HasDevsel claim)
    (inTime : cycles.length ≤ 3) :
    EndsTaking (pciNextPosedge >>= fun _ => waitForDevsel) pci
      (cycle :: cycles) (takenAt val claim)
      fun rc final => rc = 0 ∧ Sending val final ∧ final.seen = claim := by
  rw [← responds_once val selects]
  rw [← clocked_seen pci cycle] at selects
  refine .clock sending ?_
  refine EndsTaking.bindDone
    (devselWithin_taken (sending.clocked cycle) selects claimed inTime) ?_
  rintro _ state ⟨rfl, stillSending, isClaim⟩
  refine .modify (.pure ⟨rfl, stillSending.acceptAck64, ?_⟩)
  rw [acceptAck64_seen, isClaim]

/-! ## A master without an answer -/

/-- No edge shows TRDY#. -/
def NeverReady (cycles : List ClockCycle) : Prop :=
  ∀ cycle ∈ cycles, cycle.bus.trdyN ≠ .zero

theorem NeverReady.append
    (first : NeverReady cycles)
    (later : NeverReady cyclesLater) :
    NeverReady (cycles ++ cyclesLater) :=
  List.forall_mem_append.mpr ⟨first, later⟩

/-- Edges before an answer without TRDY# do not show it either. -/
theorem WaitsUntil.neverReady
    {bus : BiSignals}
    (waits : WaitsUntil Answered bus cycles answer)
    (notReady : answer.trdyN ≠ .zero) :
    bus.trdyN ≠ .zero ∧ NeverReady cycles := by
  induction waits with
  | here _ =>
      exact ⟨notReady, List.forall_mem_nil _⟩
  | later missed _ inductionHypothesis =>
      obtain ⟨first, others⟩ := inductionHypothesis notReady
      exact ⟨fun ready => missed (.inl ready),
        List.forall_mem_cons.mpr ⟨first, others⟩⟩

theorem untilTrdy_waits
    (atEdge : pci.pciClk = .one)
    (now : pci.seen.trdyN ≠ .zero)
    (never : NeverReady cycles) :
    StillWaits pciNextPosedgeUntilTrdy pci cycles := by
  refine whileDo_stillWaits atEdge (decide_eq_true now) ?_
  intro state cycle member
  rw [clocked_seen]
  exact decide_eq_true (never cycle member)

/-- A word on the bus that no edge takes. -/
theorem dataPhase_waits
    (atEdge : pci.pciClk = .one)
    (never : NeverReady cycles) :
    StillWaits (pciNextPosedge >>= fun _ => pciNextPosedgeUntilTrdy) pci
      cycles := by
  cases cycles with
  | nil =>
      exact (pciNextPosedge_stillWaits atEdge).bind _
  | cons cycle cycles =>
      obtain ⟨first, others⟩ := List.forall_mem_cons.mp never
      refine .clock atEdge (untilTrdy_waits (clocked_pciClk pci cycle) ?_ others)
      rw [clocked_seen]
      exact first

theorem EndsTaking.endsAfter
    {call : Call User Handle Value}
    (ends : EndsTaking call pci cycles taken post) :
    EndsAfter call pci cycles post := by
  obtain ⟨outs, value, final, run, _, done⟩ := ends
  exact ⟨outs, value, final, run, done⟩

/-! ## The words after the first -/

/-- The outputs of a word of a burst; the last one raises FRAME#. -/
def wordDrive
    (beLn val : BitVec 32)
    (rest : List (BitVec 32))
    (out : BiSignals) : BiSignals :=
  writeDrive (val.setWidth 64) (if rest = [] then beLn else 0) false
    { out with frameN := if rest = [] then .one else out.frameN }

theorem lowWord_writeDrive
    (val ben : BitVec 32)
    (out : BiSignals) :
    lowWord (writeDrive (val.setWidth 64) ben false out) = val := by
  refine sampleWord_eq fun line => ?_
  simp [writeDrive, driveLowAd, lowLine]

/-- What follows the answer to a word of a burst. -/
def afterWord
    (beLn : BitVec 32)
    (rest : List (BitVec 32)) : Call User Handle Nat := do
  if (← Program.getState).seen.stopN = .zero then
    drive fun out => { out with frameN := .one, irdyN := .one }
    pciNextPosedge
    return rest.length
  else
    writeBurstRest beLn rest

theorem writeBurstRest_cons
    (beLn val : BitVec 32)
    (rest : List (BitVec 32)) :
    (writeBurstRest beLn (val :: rest) : Call User Handle Nat) =
      drive (wordDrive beLn val rest) >>= fun _ =>
        (pciNextPosedge >>= fun _ => pciNextPosedgeUntilTrdy) >>= fun _ =>
          afterWord beLn rest := by
  apply Program.ext
  intro state
  simp only [writeBurstRest, setupForWrite, drive, afterWord, wordDrive,
    Program.start_bind, Program.start_modifyState, Behavior.finish_bind,
    Behavior.bind_assoc]
  rfl

/-- A master at an edge with IRDY# low. -/
structure InData (pci : SimbusPci User Handle) : Prop where
  atEdge : pci.pciClk = .one
  irdyN : pci.out.irdyN = .zero

theorem Sending.inData
    (sending : Sending val pci) :
    InData pci :=
  ⟨sending.atEdge, sending.irdyN⟩

theorem InData.sends
    (inData : InData pci)
    (beLn val : BitVec 32)
    (rest : List (BitVec 32)) :
    Sending val (pci.driving (wordDrive beLn val rest)) where
  atEdge := inData.atEdge
  irdyN := inData.irdyN
  word := lowWord_writeDrive val _ _

/--
How a target answers from some answer on: it takes the words before the last
one and goes on, and stops the burst at the last one, which it takes if it shows
TRDY# as well.
-/
inductive Stopping : Nat → BiSignals → List ClockCycle → BiSignals → Prop where
  | stop
      {bus : BiSignals}
      (stopped : bus.stopN = .zero) :
      Stopping 0 bus [] bus
  | word
      {index : Nat}
      {bus answer last : BiSignals}
      {cycle : ClockCycle}
      {waiting phases : List ClockCycle}
      (takes : bus.trdyN = .zero)
      (goesOn : bus.stopN ≠ .zero)
      (waits : WaitsUntil Answered cycle.bus waiting answer)
      (later : Stopping index answer phases last) :
      Stopping (index + 1) bus (cycle :: (waiting ++ phases)) last

variable {index : Nat}
variable {last : BiSignals}
variable {waiting phases : List ClockCycle}

/-- A word that no edge takes keeps the master waiting. -/
theorem writeBurstRest_waits
    (inData : InData pci)
    (never : NeverReady cycles)
    (beLn val : BitVec 32)
    (rest : List (BitVec 32)) :
    StillWaits (writeBurstRest beLn (val :: rest)) pci cycles := by
  rw [writeBurstRest_cons]
  have sending := inData.sends beLn val rest
  exact .drive ((dataPhase_waits sending.atEdge never).bind _)

/-- A target that stops with TRDY# gets the words up to there. -/
theorem writeBurstRest_taken
    {rest : List (BitVec 32)}
    (inData : InData pci)
    (waits : WaitsUntil Answered cycle.bus waiting answer)
    (stopping : Stopping index answer phases last)
    (ready : last.trdyN = .zero)
    (inside : index ≤ rest.length)
    (beLn val : BitVec 32)
    (idle : ClockCycle) :
    EndsTaking (writeBurstRest beLn (val :: rest)) pci
      (cycle :: waiting ++ (phases ++ [idle])) ((val :: rest).take (index + 1))
      fun remain final =>
        remain + index = rest.length ∧ final.pciClk = .one := by
  induction stopping generalizing pci cycle waiting rest val with
  | @stop answer stopped =>
      rw [writeBurstRest_cons]
      refine .modify ?_
      refine EndsTaking.bind
        (dataPhase_taken (inData.sends beLn val rest) waits ready) ?_
      rintro _ state ⟨sending, isAnswer⟩
      refine .getState ?_
      rw [isAnswer, if_pos stopped]
      refine .modify (.idleClock sending.atEdge ?_ (.pure ⟨rfl, ?_⟩))
      · exact (nofun : Logic4.one ≠ .zero)
      · exact clocked_pciClk _ _
  | @word index answer next last cycle' waiting' phases takes goesOn waits'
      later inductionHypothesis =>
      cases rest with
      | nil => cases inside
      | cons val' rest =>
          rw [writeBurstRest_cons]
          refine .modify ?_
          refine EndsTaking.bind
            (dataPhase_taken (inData.sends beLn val (val' :: rest)) waits takes)
            ?_
          rintro _ state ⟨sending, isAnswer⟩
          refine .getState ?_
          rw [isAnswer, if_neg goesOn]
          have tail := inductionHypothesis sending.inData waits' ready
            (Nat.le_of_succ_le_succ inside) val'
          rw [List.cons_append, List.append_assoc]
          refine tail.mono ?_
          rintro remain final ⟨counted, atEdge⟩
          rw [List.length_cons]
          exact ⟨by omega, atEdge⟩

/-- A target that stops without TRDY# leaves the master waiting. -/
theorem writeBurstRest_stuck
    {rest : List (BitVec 32)}
    (inData : InData pci)
    (waits : WaitsUntil Answered cycle.bus waiting answer)
    (stopping : Stopping index answer phases last)
    (notReady : last.trdyN ≠ .zero)
    (inside : index ≤ rest.length)
    (never : NeverReady cyclesLater)
    (beLn val : BitVec 32) :
    StillWaits (writeBurstRest beLn (val :: rest)) pci
      (cycle :: waiting ++ (phases ++ cyclesLater)) := by
  induction stopping generalizing pci cycle waiting rest val with
  | @stop answer stopped =>
      obtain ⟨first, others⟩ := waits.neverReady notReady
      refine writeBurstRest_waits inData ?_ beLn val rest
      exact NeverReady.append (List.forall_mem_cons.mpr ⟨first, others⟩) never
  | @word index answer next last cycle' waiting' phases takes goesOn waits'
      later inductionHypothesis =>
      cases rest with
      | nil => cases inside
      | cons val' rest =>
          rw [writeBurstRest_cons]
          refine .drive ?_
          refine EndsAfter.waits (dataPhase_taken
            (inData.sends beLn val (val' :: rest)) waits takes).endsAfter ?_
          rintro _ state ⟨sending, isAnswer⟩
          have tail := inductionHypothesis sending.inData waits' notReady
            (Nat.le_of_succ_le_succ inside) val'
          obtain ⟨final, waiting⟩ := tail
          refine ⟨final, ?_⟩
          rw [List.cons_append, List.append_assoc, afterWord,
            Program.start_bind, Program.start_getState, Behavior.finish_bind,
            isAnswer, if_neg goesOn]
          exact waiting

/-! ## A whole burst -/

/-- A write burst after its first word. -/
def endBurst
    (rest : List (BitVec 32))
    (beLn : BitVec 32) : Call User Handle Int := do
  let remain ← writeBurstRest beLn rest
  releaseBus
  return (rest.length : Int) + 1 - remain

/-- A write burst after its address phases. -/
def sendBurst
    (val : BitVec 32)
    (rest : List (BitVec 32))
    (beFn beLn : BitVec 32) : Call User Handle Int := do
  drive (writeDrive (val.setWidth 64) beFn false)
  let rc ← pciNextPosedge >>= fun _ => waitForDevsel
  if rc < 0 then
    return if rest = [] then 1 else rc
  else
    pciNextPosedgeUntilTrdy
    endBurst rest beLn

/-- A write of one word is a burst of it. -/
theorem simbusPciWrite32b_eq
    (callbacks : Callbacks User Handle)
    (stack : Nat)
    (addr : BitVec 64)
    (val : BitVec 32)
    {rest : List (BitVec 32)}
    {beFn beLn : BitVec 32}
    (legal : rest = [] → beFn = beLn) :
    simbusPciWrite32b callbacks stack addr (val :: rest) beFn beLn =
      startTransaction callbacks stack addr 0xf7 beFn false
          (decide (rest ≠ [])) >>= fun _ =>
        sendBurst val rest beFn beLn := by
  cases rest with
  | nil =>
      obtain rfl := legal rfl
      have passes : (Program.assert fun _ => decide True :
          Call User Handle Unit) = pure () :=
        Program.ext fun _ => rfl
      have notBurst : decide (([] : List (BitVec 32)) ≠ []) = false := by simp
      simp only [simbusPciWrite32b, simbusPciWrite32, genericPciWrite32,
        sendBurst, endBurst, setupForWrite, bind_assoc, passes, pure_bind,
        notBurst]
      refine bind_congr fun _ => bind_congr fun _ => bind_congr fun _ =>
        bind_congr fun rc => ?_
      split
      · simp
      · simp [writeBurstRest]
  | cons val' rest =>
      have isBurst : decide (val' :: rest ≠ []) = true := by simp
      simp only [simbusPciWrite32b, sendBurst, endBurst, setupForWrite,
        bind_assoc, isBurst, List.cons_ne_nil, if_false]
      rfl

section SendBurst

variable {first idle : ClockCycle}
variable {selecting : List ClockCycle}
variable {rest : List (BitVec 32)}
variable {beFn beLn : BitVec 32}

theorem InData.sendsFirst
    (inData : InData pci)
    (val beFn : BitVec 32) :
    Sending val (pci.driving (writeDrive (val.setWidth 64) beFn false)) where
  atEdge := inData.atEdge
  irdyN := inData.irdyN
  word := lowWord_writeDrive val _ _

/-- The first word is taken, and the rest of the burst follows. -/
theorem sendBurst_taken
    {post : Int → SimbusPci User Handle → Prop}
    (inData : InData pci)
    (selects : WaitsUntil Responds first.bus selecting claim)
    (claimed : HasDevsel claim)
    (inTime : selecting.length ≤ 3)
    (waits : WaitsUntil Answered claim waiting answer)
    (ready : answer.trdyN = .zero)
    (later : ∀ state : SimbusPci User Handle, Sending val state →
      state.seen = answer →
        EndsTaking (endBurst rest beLn) state cycles taken post) :
    EndsTaking (sendBurst val rest beFn beLn) pci
      (first :: selecting ++ (waiting ++ cycles)) (val :: taken) post := by
  have once : val :: taken = takenAt val claim ++
      ((if claim.trdyN = .zero then [] else [val]) ++ taken) := by
    rw [← List.append_assoc, takenAt_once]
    rfl
  rw [once]
  refine .modify (EndsTaking.bind
    (firstClock_taken (inData.sendsFirst val beFn) selects claimed inTime) ?_)
  rintro _ state ⟨rfl, sending, isClaim⟩
  rw [if_neg (by decide)]
  rw [← isClaim] at waits ⊢
  refine EndsTaking.bind (untilTrdy_taken sending waits ready) ?_
  rintro _ state ⟨stillSending, isAnswer⟩
  exact later state stillSending isAnswer

/-- The same for a rest that waits on. -/
theorem sendBurst_waits
    (inData : InData pci)
    (selects : WaitsUntil Responds first.bus selecting claim)
    (claimed : HasDevsel claim)
    (inTime : selecting.length ≤ 3)
    (later : ∀ state : SimbusPci User Handle, Sending val state →
      state.seen = claim →
        StillWaits (pciNextPosedgeUntilTrdy >>= fun _ => endBurst rest beLn)
          state cycles) :
    StillWaits (sendBurst val rest beFn beLn) pci
      (first :: selecting ++ cycles) := by
  refine .drive (EndsAfter.waits
    (firstClock_taken (inData.sendsFirst val beFn) selects claimed
      inTime).endsAfter ?_)
  rintro _ state ⟨rfl, sending, isClaim⟩
  rw [if_neg (by decide)]
  exact later state sending isClaim

/-- The release of the bus takes a clock without a word. -/
theorem endBurst_taken
    {remain : Nat}
    (ends : EndsTaking (writeBurstRest beLn rest) pci cycles taken
      fun left final => left = remain ∧ final.pciClk = .one)
    (idle : ClockCycle) :
    EndsTaking (endBurst rest beLn) pci (cycles ++ [idle]) taken
      fun value _ => value = (rest.length : Int) + 1 - remain := by
  rw [← List.append_nil taken]
  refine ends.bind ?_
  rintro _ state ⟨rfl, atEdge⟩
  have release : EndsTaking (releaseBus : Call User Handle Unit) state [idle]
      [] fun _ _ => True :=
    .modify (by
      rw [← bind_pure (pciNextPosedge : Call User Handle Unit)]
      exact .idleClock atEdge (nofun : Logic4.z ≠ .zero) (.pure trivial))
  exact release.bindDone fun _ _ _ => .pure rfl

/-- A write of one word that a target takes. -/
theorem endBurst_single
    (atEdge : pci.pciClk = .one)
    (idle : ClockCycle) :
    EndsTaking (endBurst [] beLn) pci [idle] []
      fun value _ => value = 1 := by
  have none : EndsTaking (writeBurstRest beLn []) pci [] []
      fun left final => left = 0 ∧ final.pciClk = .one :=
    .pure ⟨rfl, atEdge⟩
  exact endBurst_taken none idle

/-- The words up to a stop with TRDY#. -/
theorem endBurst_stopped
    (inData : InData pci)
    (waits : WaitsUntil Answered cycle.bus waiting answer)
    (stopping : Stopping index answer phases last)
    (ready : last.trdyN = .zero)
    (inside : index ≤ rest.length)
    (val : BitVec 32)
    (idle settle : ClockCycle) :
    EndsTaking (endBurst (val :: rest) beLn) pci
      (cycle :: waiting ++ (phases ++ [idle]) ++ [settle])
      ((val :: rest).take (index + 1))
      fun value _ => value = (index : Int) + 2 := by
  have ends : EndsTaking (writeBurstRest beLn (val :: rest)) pci
      (cycle :: waiting ++ (phases ++ [idle])) ((val :: rest).take (index + 1))
      fun left final => left = rest.length - index ∧ final.pciClk = .one :=
    (writeBurstRest_taken inData waits stopping ready inside beLn val
      idle).mono fun left final ⟨counted, atEdge⟩ => ⟨by omega, atEdge⟩
  refine (endBurst_taken ends settle).mono ?_
  rintro value _ rfl
  rw [List.length_cons]
  omega

end SendBurst

/-! ## A target that stops -/

/--
A write that a target claims in time and stops at a word.  It takes the words
before that one, and afterwards no edge shows TRDY# any more.
-/
structure StoppedBurst (User Handle : Type) where
  callbacks : Callbacks User Handle
  stack : Nat
  addr : BitVec 64
  val : BitVec 32
  rest : List (BitVec 32)
  beFn : BitVec 32
  beLn : BitVec 32
  legal : rest = [] → beFn = beLn
  master : SimbusPci User Handle
  atEdge : master.pciClk = .one
  starting : List ClockCycle
  startOuts : List BiSignals
  addressed : SimbusPci User Handle
  starts : ClockRun
    ((startTransaction callbacks stack addr 0xf7 beFn false
      (decide (rest ≠ []))).start master) starting startOuts () addressed
  first : ClockCycle
  selecting : List ClockCycle
  claim : BiSignals
  selects : WaitsUntil Responds first.bus selecting claim
  claimed : HasDevsel claim
  inTime : selecting.length ≤ 3
  waiting : List ClockCycle
  answer : BiSignals
  waits : WaitsUntil Answered claim waiting answer
  index : Nat
  inside : index ≤ rest.length
  phases : List ClockCycle
  last : BiSignals
  stopping : Stopping index answer phases last
  later : Nat → ClockCycle
  notReady : ∀ clock, (later clock).bus.trdyN ≠ .zero

namespace StoppedBurst

/-- Some of the clocks after the stop. -/
def tail (burst : StoppedBurst User Handle) (count : Nat) : List ClockCycle :=
  (List.range count).map burst.later

/-- The clocks from the first word on. -/
def clocks (burst : StoppedBurst User Handle) (count : Nat) : List ClockCycle :=
  burst.first :: burst.selecting ++
    (burst.waiting ++ (burst.phases ++ burst.tail count))

/--
The write returns, with the number of words that the target has taken, and these
are the first ones of the data.
-/
def ReturnsTaken (burst : StoppedBurst User Handle) : Prop :=
  ∃ count outs value final,
    ClockRun
      ((simbusPciWrite32b burst.callbacks burst.stack burst.addr
        (burst.val :: burst.rest) burst.beFn burst.beLn).start burst.master)
      (burst.starting ++ burst.clocks count) outs value final ∧
    value =
      (takenWords (outs.drop burst.starting.length)
        (burst.clocks count)).length ∧
    takenWords (outs.drop burst.starting.length) (burst.clocks count) <+:
      burst.val :: burst.rest

variable (burst : StoppedBurst User Handle)

theorem addressed_inData : InData burst.addressed := by
  have addressed := burst.starts.addressed burst.atEdge
  exact ⟨addressed.pciClk, addressed.irdyN⟩

theorem neverReady_tail (count : Nat) : NeverReady (burst.tail count) := by
  intro cycle member
  obtain ⟨clock, _, rfl⟩ := List.mem_map.mp member
  exact burst.notReady clock

/-- A burst that ends after its address phases returns. -/
theorem returnsTaken_of_ends
    {burst : StoppedBurst User Handle}
    (count : Nat)
    {taken : List (BitVec 32)}
    (ends : EndsTaking
      (sendBurst burst.val burst.rest burst.beFn burst.beLn) burst.addressed
      (burst.clocks count) taken fun value _ => value = taken.length)
    (inOrder : taken <+: burst.val :: burst.rest) :
    burst.ReturnsTaken := by
  obtain ⟨outs, value, final, run, rfl, counted⟩ := ends
  have dropped : (burst.startOuts ++ outs).drop burst.starting.length =
      outs := by
    rw [← burst.starts.length, List.drop_left]
  refine ⟨count, burst.startOuts ++ outs, value, final, ?_, ?_, ?_⟩
  · rw [simbusPciWrite32b_eq _ _ _ _ burst.legal, Program.start_bind]
    exact burst.starts.bind run
  · rw [dropped]
    exact counted
  · rw [dropped]
    exact inOrder

/-- A burst that waits after its address phases does not return. -/
theorem not_returnsTaken_of_waits
    {burst : StoppedBurst User Handle}
    (waits : ∀ count, StillWaits
      (sendBurst burst.val burst.rest burst.beFn burst.beLn) burst.addressed
      (burst.clocks count)) :
    ¬ burst.ReturnsTaken := by
  rintro ⟨count, outs, value, final, run, _⟩
  rw [simbusPciWrite32b_eq _ _ _ _ burst.legal, Program.start_bind] at run
  obtain ⟨_, _, later⟩ := burst.starts.later run
  exact (waits count).not_run later

/-- A stop with TRDY# at a later word, or of a write of one word. -/
theorem returnsTaken
    (ready : burst.last.trdyN = .zero)
    (later : 0 < burst.index ∨ burst.rest = []) :
    burst.ReturnsTaken := by
  have inData := burst.addressed_inData
  obtain ⟨callbacks, stack, addr, val, rest, beFn, beLn, legal, master, atEdge,
    starting, startOuts, addressed, starts, first, selecting, claim, selects,
    claimed, inTime, waiting, answer, waits, index, inside, phases, last,
    stopping, clocks, notReady⟩ := burst
  dsimp only at ready later inData
  cases stopping with
  | stop stopped =>
      obtain rfl := later.resolve_left (Nat.lt_irrefl 0)
      have ends : EndsTaking (sendBurst val [] beFn beLn) addressed
          (first :: selecting ++ (waiting ++ [clocks 0])) [val]
          fun value _ => value = ([val].length : Int) :=
        sendBurst_taken inData selects claimed inTime waits ready
          fun state sending _ => endBurst_single sending.atEdge (clocks 0)
      exact returnsTaken_of_ends 1 ends List.prefix_rfl
  | @word index _ answer last cycle waiting' phases takes goesOn waits'
      stopping =>
      cases rest with
      | nil => cases inside
      | cons val' rest =>
          have within : index ≤ rest.length := Nat.le_of_succ_le_succ inside
          have ends : EndsTaking (sendBurst val (val' :: rest) beFn beLn)
              addressed
              (first :: selecting ++ (waiting ++
                (cycle :: waiting' ++ (phases ++ [clocks 0]) ++ [clocks 1])))
              (val :: (val' :: rest).take (index + 1))
              fun value _ => value = (index : Int) + 2 :=
            sendBurst_taken inData selects claimed inTime waits takes
              fun state sending _ => endBurst_stopped sending.inData waits'
                stopping ready within val' (clocks 0) (clocks 1)
          have sameClocks :
              cycle :: waiting' ++ (phases ++ [clocks 0]) ++ [clocks 1] =
                cycle :: (waiting' ++ phases) ++
                  (List.range 2).map clocks := by
            simp [List.range_succ]
          rw [sameClocks] at ends
          refine returnsTaken_of_ends 2 (ends.mono ?_) ?_
          · rintro value _ rfl
            simp only [List.length_cons, List.length_take]
            omega
          · exact List.prefix_cons_inj _ |>.mpr (List.take_prefix _ _)

/-- A stop without TRDY#, or at the first of several words. -/
theorem not_returnsTaken
    (missed : burst.last.trdyN ≠ .zero ∨
      burst.index = 0 ∧ burst.rest ≠ []) :
    ¬ burst.ReturnsTaken := by
  have inData := burst.addressed_inData
  have never := burst.neverReady_tail
  refine not_returnsTaken_of_waits fun count => ?_
  have neverLater := never count
  generalize isTail : burst.tail count = tail at neverLater
  rw [clocks, isTail]
  clear never isTail
  obtain ⟨callbacks, stack, addr, val, rest, beFn, beLn, legal, master, atEdge,
    starting, startOuts, addressed, starts, first, selecting, claim, selects,
    claimed, inTime, waiting, answer, waits, index, inside, phases, last,
    stopping, _, _⟩ := burst
  dsimp only at missed inData ⊢
  refine sendBurst_waits inData selects claimed inTime ?_
  intro state sending isClaim
  rw [← isClaim] at waits
  cases stopping with
  | stop stopped =>
      by_cases ready : answer.trdyN = .zero
      · -- The stop is not seen at the first word.
        obtain ⟨_, several⟩ := missed.resolve_left (not_not.mpr ready)
        obtain ⟨val', rest, rfl⟩ := List.exists_cons_of_ne_nil several
        refine EndsAfter.waits (untilTrdy_taken sending waits ready).endsAfter ?_
        rintro _ final ⟨stillSending, _⟩
        exact (writeBurstRest_waits stillSending.inData neverLater beLn val'
          rest).bind _
      · obtain ⟨now, others⟩ := waits.neverReady ready
        exact (untilTrdy_waits sending.atEdge now
          (others.append neverLater)).bind _
  | word takes goesOn waits' stopping =>
      obtain notReady := missed.resolve_right fun both => nomatch both.1
      cases rest with
      | nil => cases inside
      | cons val' rest =>
          refine EndsAfter.waits
            (untilTrdy_taken sending waits takes).endsAfter ?_
          rintro _ final ⟨stillSending, _⟩
          have stuck := writeBurstRest_stuck stillSending.inData waits' stopping
            notReady (Nat.le_of_succ_le_succ inside) neverLater beLn val'
          rw [List.cons_append, List.append_assoc] at *
          exact stuck.bind _

/--
A stopped write returns the number of words taken exactly if the stop comes with
TRDY#, and not at the first of several words.
-/
theorem returnsTaken_iff :
    burst.ReturnsTaken ↔
      burst.last.trdyN = .zero ∧ (0 < burst.index ∨ burst.rest = []) := by
  constructor
  · intro returns
    by_contra missed
    refine burst.not_returnsTaken ?_ returns
    rcases not_and_or.mp missed with notReady | early
    · exact .inl notReady
    · obtain ⟨notLater, several⟩ := not_or.mp early
      exact .inr ⟨Nat.eq_zero_of_not_pos notLater, several⟩
  · rintro ⟨ready, later⟩
    exact burst.returnsTaken ready later

/-- STOP# and DEVSEL# without TRDY#. -/
def retry : BiSignals :=
  { BiSignals.released with
    trdyN := .one
    stopN := .zero
    devselN := .zero }

/-- A target that retries the first of two words leaves the master waiting. -/
theorem retriedWrite_hangs :
    ∃ burst : StoppedBurst Unit Unit,
      burst.master = readyMaster ∧ burst.addr = 0 ∧ burst.val = 1 ∧
        burst.rest = [2] ∧ burst.first = grantedClock retry ∧
        burst.index = 0 ∧ burst.last = retry ∧ ¬ burst.ReturnsTaken := by
  let callbacks : Callbacks Unit Unit :=
    { need32 := fun _ _ _ device => (0, device)
      recv32 := fun _ _ _ _ device => device }
  obtain ⟨outs, _, addressed, started, _⟩ :=
    startTransaction_granted callbacks 0 0 0xf7 0 false
      (decide ([2#32] ≠ [])) retry (by decide) readyMaster_ready rfl
  refine ⟨
    { callbacks := callbacks
      stack := 1
      addr := 0
      val := 1
      rest := [2]
      beFn := 0
      beLn := 0
      legal := nofun
      master := readyMaster
      atEdge := rfl
      starting := _
      startOuts := outs
      addressed := addressed
      starts := started
      first := grantedClock retry
      selecting := []
      claim := retry
      selects := .here (.inl rfl)
      claimed := rfl
      inTime := Nat.zero_le 3
      waiting := []
      answer := retry
      waits := .here (.inr rfl)
      index := 0
      inside := Nat.zero_le 1
      phases := []
      last := retry
      stopping := .stop rfl
      later := fun _ => grantedClock BiSignals.released
      notReady := fun _ => nofun },
    rfl, rfl, rfl, rfl, rfl, rfl, rfl, ?_⟩
  exact not_returnsTaken _ (.inl nofun)

end StoppedBurst

end

end Simbus.Pci
