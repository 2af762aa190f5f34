import Simbus.Pci.AttributePhase
import Simbus.Pci.StoppedWrite

/-!
# A memory on the bus

A memory target listens to the address phases of a master and takes a word at
every edge of a memory write where IRDY# and TRDY# are low: 64 bits if it shows
ACK64#, and otherwise 32 bits.  What it holds is told by what the master drives
and by what the edges show.
-/

namespace Simbus.Pci

open FourValued Clocked

/-! ## Bytes -/

/-- Bytes by address. -/
abbrev Bytes : Type := BitVec 64 → BitVec 8

/-- Store the enabled bytes of the low lanes of a word from an address on. -/
def storeLanes
    (lanes : Nat)
    (addr val : BitVec 64)
    (ben : BitVec 8)
    (bytes : Bytes) : Bytes :=
  fun place =>
    let lane := (place - addr).toNat
    if lane < lanes ∧ ben.getLsbD lane = false then
      val.extractLsb' (8 * lane) 8
    else
      bytes place

/-- The lanes of the upper half of a word. -/
theorem lane_upper
    (addr place : BitVec 64) :
    ((place - (addr + 4)).toNat < 4 ↔
        4 ≤ (place - addr).toNat ∧ (place - addr).toNat < 8) ∧
      ((place - (addr + 4)).toNat < 4 →
        (place - (addr + 4)).toNat + 4 = (place - addr).toNat) := by
  refine ⟨⟨fun inside => ?_, fun inside => ?_⟩, fun inside => ?_⟩ <;> bv_omega

/-- The bytes of a word in two halves. -/
theorem storeLanes_halves
    {low high val : BitVec 64}
    {benLow benHigh ben : BitVec 8}
    (addr : BitVec 64)
    (sameLow : ∀ lane < 4, low.extractLsb' (8 * lane) 8 =
      val.extractLsb' (8 * lane) 8)
    (sameHigh : ∀ lane < 4, high.extractLsb' (8 * lane) 8 =
      val.extractLsb' (8 * (lane + 4)) 8)
    (benLower : ∀ lane < 4, benLow.getLsbD lane = ben.getLsbD lane)
    (benUpper : ∀ lane < 4, benHigh.getLsbD lane = ben.getLsbD (lane + 4))
    (bytes : Bytes) :
    storeLanes 4 (addr + 4) high benHigh (storeLanes 4 addr low benLow bytes) =
      storeLanes 8 addr val ben bytes := by
  funext place
  obtain ⟨isUpper, shifted⟩ := lane_upper addr place
  simp only [storeLanes]
  generalize (place - addr).toNat = lane at isUpper shifted
  generalize (place - (addr + 4)).toNat = upperLane at isUpper shifted
  by_cases lower : lane < 4
  · have notUpper : ¬ upperLane < 4 := by omega
    have inside : lane < 8 := by omega
    simp only [notUpper, lower, inside, false_and, true_and, if_false,
      benLower lane lower, sameLow lane lower]
  · by_cases inside : upperLane < 4
    · obtain rfl := shifted inside
      have within : upperLane + 4 < 8 := by omega
      simp only [inside, lower, within, true_and, false_and, if_false,
        benUpper _ inside, sameHigh _ inside]
    · have outside : ¬ lane < 8 := by omega
      simp only [inside, lower, outside, false_and, if_false]

/-! ## A memory target -/

/-- Where a memory is in a transaction. -/
inductive MemoryPhase where
  | idle
  | upper (low : BitVec 32)
  | data (addr : BitVec 64)
  | other
deriving DecidableEq

structure BusMemory where
  phase : MemoryPhase
  bytes : Bytes

/-- The command on the low C/BE# lines. -/
def lowCommand (out : BiSignals) : BitVec 4 :=
  sampleWord fun lane => out.cBe (lowLane lane)

/-- After the last address phase: only a memory write is followed. -/
def MemoryPhase.addressed
    (out : BiSignals)
    (addr : BitVec 64) : MemoryPhase :=
  if lowCommand out = 0x7 then .data addr else .other

/-- A master that has released FRAME# and IRDY#. -/
def Ended (out : BiSignals) : Prop :=
  out.frameN ≠ .zero ∧ out.irdyN ≠ .zero

instance (out : BiSignals) : Decidable (Ended out) :=
  inferInstanceAs (Decidable (_ ∧ _))

/-- The bytes of a word at an edge. -/
def wordLanes (bus : BiSignals) : Nat :=
  if bus.ack64N = .zero then 8 else 4

namespace BusMemory

/-- A memory after an edge that shows `bus`, if the master drives `out`. -/
def edge (memory : BusMemory) (out bus : BiSignals) : BusMemory :=
  match memory.phase with
  | .idle =>
      if out.frameN = .zero then
        if lowCommand out = 0xd then
          { memory with phase := .upper (lowWord out) }
        else
          { memory with
            phase := .addressed out ((lowWord out).setWidth 64) }
      else
        memory
  | .upper low =>
      { memory with phase := .addressed out (lowWord out ++ low) }
  | .data addr =>
      if out.irdyN = .zero ∧ bus.trdyN = .zero then
        { phase := .data (addr + BitVec.ofNat 64 (wordLanes bus))
          bytes :=
            storeLanes (wordLanes bus) addr (sampleWord out.ad)
              (sampleWord out.cBe) memory.bytes }
      else if Ended out then
        { memory with phase := .idle }
      else
        memory
  | .other =>
      if Ended out then
        { memory with phase := .idle }
      else
        memory

/-- A memory after some clocks of a master. -/
def after : BusMemory → List BiSignals → List ClockCycle → BusMemory
  | memory, out :: outs, cycle :: cycles =>
      after (memory.edge out cycle.bus) outs cycles
  | memory, _, _ => memory

theorem after_append
    {outs : List BiSignals}
    {cycles : List ClockCycle}
    (sameLength : outs.length = cycles.length)
    (memory : BusMemory)
    (outsLater : List BiSignals)
    (cyclesLater : List ClockCycle) :
    memory.after (outs ++ outsLater) (cycles ++ cyclesLater) =
      (memory.after outs cycles).after outsLater cyclesLater := by
  induction outs generalizing memory cycles with
  | nil =>
      obtain rfl := List.length_eq_zero_iff.mp sameLength.symm
      rfl
  | cons out outs inductionHypothesis =>
      cases cycles with
      | nil => cases sameLength
      | cons cycle cycles =>
          exact inductionHypothesis (Nat.succ.inj sameLength) _

end BusMemory

section

variable {User Handle Value Result : Type}

/-! ## Calls that a memory watches -/

/-- A call ends after some cycles, in which a memory listens. -/
def EndsWatched
    (call : Call User Handle Value)
    (pci : SimbusPci User Handle)
    (memory : BusMemory)
    (cycles : List ClockCycle)
    (post : Value → SimbusPci User Handle → BusMemory → Prop) : Prop :=
  ∃ outs value final, ClockRun (call.start pci) cycles outs value final ∧
    post value final (memory.after outs cycles)

variable {pci : SimbusPci User Handle}
variable {memory : BusMemory}
variable {cycle : ClockCycle}
variable {cycles cyclesLater : List ClockCycle}
variable {post : Value → SimbusPci User Handle → BusMemory → Prop}
variable {next : Unit → Call User Handle Value}

theorem EndsWatched.bind
    {call : Call User Handle Result}
    {next : Result → Call User Handle Value}
    {middle : Result → SimbusPci User Handle → BusMemory → Prop}
    (first : EndsWatched call pci memory cycles middle)
    (later : ∀ result state between, middle result state between →
      EndsWatched (next result) state between cyclesLater post) :
    EndsWatched (call >>= next) pci memory (cycles ++ cyclesLater) post := by
  obtain ⟨outs, result, state, first, reached⟩ := first
  obtain ⟨outsLater, value, final, second, done⟩ :=
    later result state _ reached
  refine ⟨outs ++ outsLater, value, final, first.bind second, ?_⟩
  rw [BusMemory.after_append first.length]
  exact done

theorem EndsWatched.pure
    {value : Value}
    (done : post value pci memory) :
    EndsWatched (Pure.pure value : Call User Handle Value) pci memory []
      post :=
  ⟨[], value, pci, .done rfl, done⟩

theorem EndsWatched.modify
    {change : SimbusPci User Handle → SimbusPci User Handle}
    (later : EndsWatched (next ()) (change pci) memory cycles post) :
    EndsWatched (Program.modifyState change >>= next) pci memory cycles
      post := by
  obtain ⟨outs, value, final, later, done⟩ := later
  refine ⟨outs, value, final, ?_, done⟩
  rw [Program.start_bind, Program.start_modifyState, Behavior.finish_bind]
  exact later

theorem EndsWatched.getState
    {next : SimbusPci User Handle → Call User Handle Value}
    (later : EndsWatched (next pci) pci memory cycles post) :
    EndsWatched (Program.getState >>= next) pci memory cycles post := by
  obtain ⟨outs, value, final, later, done⟩ := later
  refine ⟨outs, value, final, ?_, done⟩
  rw [Program.start_bind, Program.start_getState, Behavior.finish_bind]
  exact later

theorem EndsWatched.clock
    (atEdge : pci.pciClk = .one)
    (later : EndsWatched (next ()) (pci.clocked cycle)
      (memory.edge pci.out cycle.bus) cycles post) :
    EndsWatched (pciNextPosedge >>= next) pci memory (cycle :: cycles)
      post := by
  obtain ⟨outs, value, final, later, done⟩ := later
  refine ⟨pci.out :: outs, value, final, ?_, done⟩
  rw [Program.start_bind]
  exact later.posedge_bind atEdge

theorem EndsWatched.mono
    {call : Call User Handle Value}
    {weaker : Value → SimbusPci User Handle → BusMemory → Prop}
    (ends : EndsWatched call pci memory cycles post)
    (implies : ∀ value state later, post value state later →
      weaker value state later) :
    EndsWatched call pci memory cycles weaker := by
  obtain ⟨outs, value, final, run, done⟩ := ends
  exact ⟨outs, value, final, run, implies value final _ done⟩

/-! ## A word on the bus -/

/-- A memory that takes a word where the edge shows TRDY#. -/
def BusMemory.offered
    (memory : BusMemory)
    (addr val : BitVec 64)
    (ben : BitVec 8)
    (bus : BiSignals) : BusMemory :=
  if bus.trdyN = .zero then
    { phase := .data (addr + BitVec.ofNat 64 (wordLanes bus))
      bytes := storeLanes (wordLanes bus) addr val ben memory.bytes }
  else
    memory

/-- A master that puts a word and its byte enables on the bus, at an edge. -/
structure Offers
    (val : BitVec 64)
    (ben : BitVec 8)
    (frameN req64N : Logic4)
    (pci : SimbusPci User Handle) : Prop where
  atEdge : pci.pciClk = .one
  irdyN : pci.out.irdyN = .zero
  frameN : pci.out.frameN = frameN
  req64N : pci.out.req64N = req64N
  ad : sampleWord pci.out.ad = val
  cBe : sampleWord pci.out.cBe = ben

variable {addr val : BitVec 64}
variable {ben : BitVec 8}
variable {frameN req64N : Logic4}

theorem Offers.clocked
    (offers : Offers val ben frameN req64N pci)
    (cycle : ClockCycle) :
    Offers val ben frameN req64N (pci.clocked cycle) where
  atEdge := clocked_pciClk pci cycle
  irdyN := (clocked_irdyN pci cycle).trans offers.irdyN
  frameN := (clocked_frameN pci cycle).trans offers.frameN
  req64N := (clocked_req64N pci cycle).trans offers.req64N
  ad := by
    rw [clocked_ad]
    exact offers.ad
  cBe := by
    rw [clocked_cBe]
    exact offers.cBe

theorem Offers.edge
    (offers : Offers val ben frameN req64N pci)
    (inData : memory.phase = .data addr)
    (bus : BiSignals) :
    memory.edge pci.out bus = memory.offered addr val ben bus := by
  have notEnded : ¬ Ended pci.out := fun ended => ended.2 offers.irdyN
  simp only [BusMemory.edge, inData, offers.irdyN, offers.ad, offers.cBe,
    true_and, notEnded, if_false, BusMemory.offered]

theorem BusMemory.offered_missed
    {bus : BiSignals}
    (notReady : bus.trdyN ≠ .zero) :
    memory.offered addr val ben bus = memory :=
  if_neg notReady

variable {claim answer : BiSignals}

/-- Waiting for TRDY# with a word on the bus. -/
theorem untilTrdy_watched
    (offers : Offers val ben frameN req64N pci)
    (inData : memory.phase = .data addr)
    (waits : WaitsUntil Answered pci.seen cycles answer)
    (ready : answer.trdyN = .zero) :
    EndsWatched pciNextPosedgeUntilTrdy pci
      (memory.offered addr val ben pci.seen) cycles
      fun _ final later =>
        Offers val ben frameN req64N final ∧
          later = memory.offered addr val ben answer := by
  generalize isSeen : pci.seen = bus at waits
  induction waits generalizing pci with
  | here passed =>
      have ends : decide (pci.seen.trdyN ≠ .zero) = false := by
        simp [isSeen, ready]
      refine ⟨[], (), pci, .done ?_, offers, rfl⟩
      exact Program.start_whileDo_false ends
  | @later bus answer cycle cycles missed _ inductionHypothesis =>
      obtain ⟨notReady, notStopped⟩ := not_or.mp missed
      have goesOn : decide (pci.seen.trdyN ≠ .zero) = true := by
        simp [isSeen, notReady]
      have turn : (pciNextPosedgeUntilTrdy : Call User Handle Unit).start pci =
          (pciNextPosedge >>= fun _ => pciNextPosedgeUntilTrdy).start pci :=
        whileDo_posedge goesOn offers.atEdge
      have rest := inductionHypothesis (offers.clocked cycle) ready
        (clocked_seen pci cycle)
      rw [← offers.edge inData] at rest
      have whole : EndsWatched
          (pciNextPosedge >>= fun _ => pciNextPosedgeUntilTrdy) pci memory
          (cycle :: cycles) _ := .clock offers.atEdge rest
      rw [BusMemory.offered_missed notReady, EndsWatched, turn]
      exact whole

/-- A word that is put on the bus and waited for. -/
theorem dataPhase_watched
    (offers : Offers val ben frameN req64N pci)
    (inData : memory.phase = .data addr)
    (waits : WaitsUntil Answered cycle.bus cycles answer)
    (ready : answer.trdyN = .zero) :
    EndsWatched (pciNextPosedge >>= fun _ => pciNextPosedgeUntilTrdy) pci
      memory (cycle :: cycles)
      fun _ final later =>
        Offers val ben frameN req64N final ∧
          later = memory.offered addr val ben answer := by
  rw [← clocked_seen pci cycle] at waits
  have rest := untilTrdy_watched (offers.clocked cycle) inData waits ready
  rw [clocked_seen, ← offers.edge inData] at rest
  exact .clock offers.atEdge rest

theorem devselWithin_watched
    {count : Nat}
    (offers : Offers val ben frameN req64N pci)
    (inData : memory.phase = .data addr)
    (selects : WaitsUntil Responds pci.seen cycles claim)
    (claimed : HasDevsel claim)
    (inTime : cycles.length ≤ count) :
    EndsWatched (devselWithin count) pci
      (memory.offered addr val ben pci.seen) cycles
      fun found final later =>
        found = true ∧ Offers val ben frameN req64N final ∧
          final.seen = claim ∧ later = memory.offered addr val ben claim := by
  generalize isSeen : pci.seen = bus at selects
  induction selects generalizing pci count with
  | here _ =>
      have selected : pci.seen.devselN = .zero := isSeen ▸ claimed
      cases count with
      | zero =>
          refine .getState (.pure ⟨?_, offers, isSeen, rfl⟩)
          exact decide_eq_true selected
      | succ count =>
          refine .getState ?_
          rw [if_pos selected]
          exact .pure ⟨rfl, offers, isSeen, rfl⟩
  | @later bus claim cycle cycles missed rest inductionHypothesis =>
      obtain ⟨count, rfl⟩ : ∃ before, count = before + 1 :=
        ⟨count - 1, by rw [List.length_cons] at inTime; omega⟩
      have unselected : ¬ pci.seen.devselN = .zero :=
        fun selected => missed (.inl (isSeen ▸ selected))
      have notReady : bus.trdyN ≠ .zero :=
        fun ready => missed (.inr (.inl ready))
      have later := inductionHypothesis (offers.clocked cycle) claimed
        (Nat.le_of_succ_le_succ inTime) (clocked_seen pci cycle)
      rw [← offers.edge inData] at later
      refine .getState ?_
      rw [if_neg unselected, BusMemory.offered_missed notReady]
      exact .clock offers.atEdge later

/-- What a master does with FRAME# and REQ64# when it sees ACK64#. -/
def frameAfter (claim : BiSignals) : Logic4 :=
  if claim.ack64N = .zero then .one else .zero

theorem Offers.acceptAck64
    (offers : Offers val ben .zero .zero pci) :
    Offers val ben (frameAfter pci.seen) (frameAfter pci.seen)
      (Pci.acceptAck64 pci) := by
  by_cases wide : pci.seen.ack64N = .zero
  · have both : pci.out.req64N = .zero ∧ pci.seen.ack64N = .zero :=
      ⟨offers.req64N, wide⟩
    rw [frameAfter, if_pos wide, Pci.acceptAck64, if_pos both]
    exact ⟨offers.atEdge, offers.irdyN, rfl, rfl, offers.ad, offers.cBe⟩
  · have notBoth : ¬ (pci.out.req64N = .zero ∧ pci.seen.ack64N = .zero) :=
      fun both => wide both.2
    rw [frameAfter, if_neg wide, Pci.acceptAck64, if_neg notBoth]
    exact offers

/-- A target selects itself in time. -/
structure Selects
    (first : ClockCycle)
    (selecting : List ClockCycle)
    (claim : BiSignals) : Prop where
  waits : WaitsUntil Responds first.bus selecting claim
  claimed : HasDevsel claim
  inTime : selecting.length ≤ 3

/-- The first word is put on the bus, and a target is selected. -/
theorem firstClock_watched
    (offers : Offers val ben .zero .zero pci)
    (inData : memory.phase = .data addr)
    (selects : Selects cycle cycles claim) :
    EndsWatched (pciNextPosedge >>= fun _ => waitForDevsel) pci memory
      (cycle :: cycles)
      fun rc final later =>
        rc = 0 ∧ Offers val ben (frameAfter claim) (frameAfter claim) final ∧
          final.seen = claim ∧ later = memory.offered addr val ben claim := by
  obtain ⟨waits, claimed, inTime⟩ := selects
  rw [← clocked_seen pci cycle] at waits
  have found := devselWithin_watched (offers.clocked cycle) inData waits claimed
    inTime
  rw [clocked_seen, ← offers.edge inData] at found
  refine .clock offers.atEdge ?_
  rw [← List.append_nil cycles]
  refine found.bind ?_
  rintro _ state _ ⟨rfl, stillOffers, rfl, rfl⟩
  exact .modify (.pure ⟨rfl, stillOffers.acceptAck64, acceptAck64_seen state,
    rfl⟩)

/-- A client has just seen the last one of some clocks. -/
def LastClocked
    (cycles : List ClockCycle)
    (pci : SimbusPci User Handle) : Prop :=
  ∃ (before : SimbusPci User Handle) (last : ClockCycle),
    cycles.getLast? = some last ∧ pci = before.clocked last

theorem LastClocked.append
    (lastClocked : LastClocked cyclesLater pci)
    (cycles : List ClockCycle) :
    LastClocked (cycles ++ cyclesLater) pci := by
  obtain ⟨before, last, isLast, rfl⟩ := lastClocked
  refine ⟨before, last, ?_, rfl⟩
  rw [List.getLast?_append, isLast]
  rfl

theorem LastClocked.atEdge
    (lastClocked : LastClocked cycles pci) :
    pci.pciClk = .one := by
  obtain ⟨before, last, _, rfl⟩ := lastClocked
  exact clocked_pciClk before last

/-- The release of the bus ends the transaction. -/
theorem releaseBus_watched
    (atEdge : pci.pciClk = .one)
    (inData : memory.phase = .data addr)
    (idle : ClockCycle) :
    EndsWatched releaseBus pci memory [idle] fun _ final later =>
      LastClocked [idle] final ∧ later = { memory with phase := .idle } := by
  let released := pci.undriven
  have ended : Ended released.out :=
    ⟨(nofun : Logic4.z ≠ .zero), (nofun : Logic4.z ≠ .zero)⟩
  have notReady : ¬ (released.out.irdyN = .zero ∧ idle.bus.trdyN = .zero) :=
    fun both => ended.2 both.1
  have edge : memory.edge released.out idle.bus =
      { memory with phase := .idle } := by
    simp only [BusMemory.edge, inData, notReady, ended, if_false, if_true]
  refine .modify ?_
  rw [← bind_pure (pciNextPosedge : Call User Handle Unit)]
  exact .clock atEdge (.pure ⟨⟨released, idle, rfl, rfl⟩, edge⟩)

/-! ## A 64-bit write -/

/-- A master after its address phases. -/
structure Writes64 (pci : SimbusPci User Handle) : Prop where
  atEdge : pci.pciClk = .one
  irdyN : pci.out.irdyN = .zero
  frameN : pci.out.frameN = .zero
  req64N : pci.out.req64N = .zero

/-- A 64-bit write after its address phases. -/
def sendWord (val : BitVec 64) (ben : BitVec 32) : Call User Handle Unit := do
  drive (writeDrive val ben true)
  let rc ← pciNextPosedge >>= fun _ => waitForDevsel
  if rc < 0 then
    return ()
  else
    pciNextPosedgeUntilTrdy
    if (← Program.getState).out.frameN = .one then
      releaseBus
    else
      drive fun out =>
        writeDrive (val >>> 32) (ben.sshiftRight 4) false
          { out with frameN := .one, req64N := .one }
      pciNextPosedge >>= fun _ => pciNextPosedgeUntilTrdy
      releaseBus

theorem simbusPciWrite64_eq
    (callbacks : Callbacks User Handle)
    (stack : Nat)
    (addr val : BitVec 64)
    (ben : BitVec 32) :
    simbusPciWrite64 callbacks stack addr val ben =
      startTransaction callbacks stack addr 0xf7 ben true false >>= fun _ =>
        sendWord val ben := by
  simp only [simbusPciWrite64, sendWord, setupForWrite, bind_assoc]
  rfl

/--
How a memory takes a word after the address phases: all 64 bits, or one half and
then the other.
-/
inductive Takes64 : List ClockCycle → Prop where
  | whole
      {first idle : ClockCycle}
      {selecting waiting : List ClockCycle}
      {claim answer : BiSignals}
      (selects : Selects first selecting claim)
      (waits : WaitsUntil Answered claim waiting answer)
      (ready : answer.trdyN = .zero)
      (claimWide : claim.ack64N = .zero)
      (wide : answer.ack64N = .zero) :
      Takes64 (first :: selecting ++ (waiting ++ [idle]))
  | halves
      {first second idle : ClockCycle}
      {selecting waiting waiting' : List ClockCycle}
      {claim answer answer' : BiSignals}
      (selects : Selects first selecting claim)
      (waits : WaitsUntil Answered claim waiting answer)
      (ready : answer.trdyN = .zero)
      (claimNarrow : claim.ack64N ≠ .zero)
      (narrow : answer.ack64N ≠ .zero)
      (waits' : WaitsUntil Answered second.bus waiting' answer')
      (ready' : answer'.trdyN = .zero)
      (narrow' : answer'.ack64N ≠ .zero) :
      Takes64 (first :: selecting ++
        (waiting ++ (second :: waiting' ++ [idle])))

theorem Writes64.offers
    (writes : Writes64 pci)
    (val : BitVec 64)
    (ben : BitVec 32) :
    Offers val (ben.setWidth 8) .zero .zero
      (pci.driving (writeDrive val ben true)) where
  atEdge := writes.atEdge
  irdyN := writes.irdyN
  frameN := writes.frameN
  req64N := writes.req64N
  ad := sampleWord_driveWord val
  cBe := sampleWord_driveWord _

theorem sampleWord_driveLowAd
    (word : BitVec 32)
    (out : BiSignals) :
    sampleWord (driveLowAd word out).ad = word.setWidth 64 := by
  apply BitVec.eq_of_getElem_eq
  intro line bounded
  rw [getElem_sampleWord, BitVec.getElem_setWidth, driveLowAd]
  by_cases low : line < 32
  · simp [low, driveWord]
  · simpa [low] using word.getLsbD_of_ge line (Nat.le_of_not_lt low)

/-- The second half is driven on the low lines. -/
theorem Offers.second
    {narrow : BitVec 64}
    (offers : Offers narrow ben frameN req64N pci)
    (val : BitVec 64)
    (enables : BitVec 32) :
    Offers ((val >>> 32).setWidth 32 |>.setWidth 64)
      (0xf#4 ++ (enables.sshiftRight 4).setWidth 4) .one .one
      (pci.driving fun out =>
        writeDrive (val >>> 32) (enables.sshiftRight 4) false
          { out with frameN := .one, req64N := .one }) where
  atEdge := offers.atEdge
  irdyN := offers.irdyN
  frameN := rfl
  req64N := rfl
  ad := sampleWord_driveLowAd _ _
  cBe := sampleWord_driveWord _

theorem offered_whole
    (memory : BusMemory)
    (addr val : BitVec 64)
    (ben : BitVec 8)
    {bus : BiSignals}
    (ready : bus.trdyN = .zero)
    (wide : bus.ack64N = .zero) :
    memory.offered addr val ben bus =
      { phase := .data (addr + 8)
        bytes := storeLanes 8 addr val ben memory.bytes } := by
  rw [BusMemory.offered, if_pos ready, wordLanes, if_pos wide]
  rfl

theorem offered_half
    (memory : BusMemory)
    (addr val : BitVec 64)
    (ben : BitVec 8)
    {bus : BiSignals}
    (ready : bus.trdyN = .zero)
    (narrow : bus.ack64N ≠ .zero) :
    memory.offered addr val ben bus =
      { phase := .data (addr + 4)
        bytes := storeLanes 4 addr val ben memory.bytes } := by
  rw [BusMemory.offered, if_pos ready, wordLanes, if_neg narrow]
  rfl

/-- The two halves of a word and of its byte enables. -/
theorem storeLanes_word
    (addr val : BitVec 64)
    (enables : BitVec 32)
    (bytes : Bytes) :
    storeLanes 4 (addr + 4) ((val >>> 32).setWidth 32 |>.setWidth 64)
        (0xf#4 ++ (enables.sshiftRight 4).setWidth 4)
        (storeLanes 4 addr val (enables.setWidth 8) bytes) =
      storeLanes 8 addr val (enables.setWidth 8) bytes := by
  refine storeLanes_halves addr (fun _ _ => rfl) ?_ (fun _ _ => rfl) ?_ bytes
  · intro lane inside
    apply BitVec.eq_of_getLsbD_eq
    intro bit bounded
    simp only [BitVec.getLsbD_extractLsb', BitVec.getLsbD_setWidth,
      BitVec.getLsbD_ushiftRight, bounded, decide_true, Bool.true_and]
    have low : 8 * lane + bit < 32 := by omega
    have place : 32 + (8 * lane + bit) = 8 * (lane + 4) + bit := by omega
    simp [low, place, show 8 * lane + bit < 64 by omega]
  · intro lane inside
    have within : 4 + lane < 32 := by omega
    have place : 4 + lane < 8 := by omega
    have notPast : ¬ 32 ≤ lane := by omega
    rw [BitVec.getLsbD_append, if_pos inside, BitVec.getLsbD_setWidth, BitVec.getLsbD_sshiftRight,
      BitVec.getLsbD_setWidth]
    simp [inside, within, place, notPast, Nat.add_comm lane 4]

/-- A memory that takes a word holds it. -/
theorem sendWord_stores
    (writes : Writes64 pci)
    (inData : memory.phase = .data addr)
    (takes : Takes64 cycles)
    (val : BitVec 64)
    (enables : BitVec 32) :
    EndsWatched (sendWord val enables) pci memory cycles
      fun _ final later =>
        LastClocked cycles final ∧
          later =
            { phase := .idle
              bytes :=
                storeLanes 8 addr val (enables.setWidth 8) memory.bytes } := by
  have offers := writes.offers val enables
  cases takes with
  | @whole first idle selecting waiting claim answer selects waits ready
      claimWide wide =>
      have taken := offered_whole memory addr val (enables.setWidth 8) ready
        wide
      have frame : frameAfter claim = .one := if_pos claimWide
      refine .modify (EndsWatched.bind
        (firstClock_watched offers inData selects) ?_)
      rintro _ state _ ⟨rfl, sending, isClaim, rfl⟩
      rw [if_neg (by decide)]
      rw [← isClaim] at waits ⊢
      refine EndsWatched.bind (untilTrdy_watched sending inData waits ready) ?_
      rintro _ state _ ⟨stillSending, rfl⟩
      refine .getState ?_
      rw [stillSending.frameN, frame, if_pos rfl, taken]
      refine EndsWatched.mono
        (releaseBus_watched stillSending.atEdge rfl idle) ?_
      rintro _ final _ ⟨last, rfl⟩
      exact ⟨(last.append waiting).append (first :: selecting), rfl⟩
  | @halves first second idle selecting waiting waiting' claim answer answer'
      selects waits ready claimNarrow narrow waits' ready' narrow' =>
      have taken := offered_half memory addr val (enables.setWidth 8) ready
        narrow
      have frame : frameAfter claim ≠ .one := by
        rw [frameAfter, if_neg claimNarrow]
        nofun
      refine .modify (EndsWatched.bind
        (firstClock_watched offers inData selects) ?_)
      rintro _ state _ ⟨rfl, sending, isClaim, rfl⟩
      rw [if_neg (by decide)]
      rw [← isClaim] at waits ⊢
      refine EndsWatched.bind (untilTrdy_watched sending inData waits ready) ?_
      rintro _ state _ ⟨stillSending, rfl⟩
      refine .getState ?_
      rw [stillSending.frameN, if_neg frame, taken]
      refine .modify (EndsWatched.bind
        (dataPhase_watched (stillSending.second val enables) rfl waits' ready')
        ?_)
      rintro _ state _ ⟨lastSending, rfl⟩
      rw [offered_half _ _ _ _ ready' narrow', storeLanes_word]
      refine EndsWatched.mono
        (releaseBus_watched lastSending.atEdge rfl idle) ?_
      rintro _ final _ ⟨last, rfl⟩
      have lastHalf := last.append (second :: waiting')
      exact ⟨(lastHalf.append waiting).append (first :: selecting), rfl⟩

/-! ## The address phases of a write -/

/-- The command of an address phase. -/
theorem DrivesAddress.lowCommand
    {out : BiSignals}
    {cmd : BitVec 4}
    {word : BitVec 32}
    (drives : DrivesAddress out cmd word) :
    Pci.lowCommand out = cmd :=
  sampleWord_eq drives.cBe

theorem DrivesAddress.lowWord
    {out : BiSignals}
    {cmd : BitVec 4}
    {word : BitVec 32}
    (drives : DrivesAddress out cmd word) :
    Pci.lowWord out = word :=
  sampleWord_eq drives.ad

/-- One address phase of a write. -/
theorem edge_single
    {out : BiSignals}
    {word : BitVec 32}
    (drives : DrivesAddress out 0x7 word)
    (idle : memory.phase = .idle)
    (bus : BiSignals) :
    memory.edge out bus =
      { memory with phase := .data (word.setWidth 64) } := by
  simp only [BusMemory.edge, idle, drives.frameN, drives.lowCommand,
    drives.lowWord, MemoryPhase.addressed, if_true]
  rfl

theorem edge_dualFirst
    {out : BiSignals}
    {word : BitVec 32}
    (drives : DrivesAddress out 0xd word)
    (idle : memory.phase = .idle)
    (bus : BiSignals) :
    memory.edge out bus = { memory with phase := .upper word } := by
  simp only [BusMemory.edge, idle, drives.frameN, drives.lowCommand,
    drives.lowWord, if_true]

theorem edge_dualSecond
    {out : BiSignals}
    {low word : BitVec 32}
    (drives : DrivesAddress out 0x7 word)
    (upper : memory.phase = .upper low)
    (bus : BiSignals) :
    memory.edge out bus = { memory with phase := .data (word ++ low) } := by
  simp only [BusMemory.edge, upper, drives.lowCommand, drives.lowWord,
    MemoryPhase.addressed, if_true]

/-- A clock with FRAME# and without IRDY#. -/
theorem edge_framed
    {out : BiSignals}
    (framed : out.frameN = .zero)
    (notReady : out.irdyN ≠ .zero)
    (inData : memory.phase = .data addr)
    (bus : BiSignals) :
    memory.edge out bus = memory := by
  have notTaken : ¬ (out.irdyN = .zero ∧ bus.trdyN = .zero) :=
    fun both => notReady both.1
  have notEnded : ¬ Ended out := fun ended => ended.1 framed
  simp only [BusMemory.edge, inData, notTaken, notEnded, if_false]

/-- A master in the address phases of a 64-bit transaction. -/
structure Addressing64 (pci : SimbusPci User Handle) : Prop where
  atEdge : pci.pciClk = .one
  frameN : pci.out.frameN = .zero
  irdyN : pci.out.irdyN ≠ .zero
  req64N : pci.out.req64N = .zero

theorem Addressing64.clocked
    (addressing : Addressing64 pci)
    (cycle : ClockCycle) :
    Addressing64 (pci.clocked cycle) where
  atEdge := clocked_pciClk pci cycle
  frameN := (clocked_frameN pci cycle).trans addressing.frameN
  irdyN := by
    rw [clocked_irdyN]
    exact addressing.irdyN
  req64N := (clocked_req64N pci cycle).trans addressing.req64N

theorem Addressing64.startData
    (addressing : Addressing64 pci)
    (burst : Bool) :
    Writes64 (Pci.startData burst pci) := by
  have stays : ¬ (pci.out.req64N ≠ .zero ∧ burst = false ∧
      ¬ pcixMode pci = true) :=
    fun ends => ends.1 addressing.req64N
  exact ⟨addressing.atEdge, rfl, (if_neg stays).trans addressing.frameN,
    addressing.req64N⟩

variable {outs : List BiSignals}
variable {final : SimbusPci User Handle}
variable {enables : BitVec 32}

/-- A memory ignores the attribute phase. -/
theorem endAddress_watched
    (addressing : Addressing64 pci)
    (inData : memory.phase = .data addr)
    (run : ClockRun ((endAddress enables false).start pci) cycles outs ()
      final) :
    Writes64 final ∧ memory.after outs cycles = memory := by
  by_cases isPcix : pci.pcixcap = .one
  · have asAttribute : Addressing64 (attributeDriven enables pci) :=
      ⟨addressing.atEdge, addressing.frameN, addressing.irdyN,
        addressing.req64N⟩
    rw [endAddress_pcix isPcix] at run
    obtain ⟨cycle, cycles, outs, rfl, rfl, later⟩ :=
      run.of_posedge asAttribute.atEdge
    let between := (attributeDriven enables pci).clocked cycle
    have turned : Addressing64 (between.driving (driveLowBe 0xf)) := by
      obtain ⟨atEdge, frameN, irdyN, req64N⟩ := asAttribute.clocked cycle
      exact ⟨atEdge, frameN, irdyN, req64N⟩
    obtain ⟨cycle', cycles, outs, rfl, rfl, last⟩ :=
      later.of_drive.of_clock turned.atEdge
    obtain ⟨rfl, rfl, _, rfl⟩ := ClockRun.of_finish last
    refine ⟨(turned.clocked cycle').startData false, ?_⟩
    rw [BusMemory.after, edge_framed asAttribute.frameN asAttribute.irdyN inData,
      BusMemory.after, edge_framed turned.frameN turned.irdyN inData]
    rfl
  · rw [endAddress_start isPcix] at run
    obtain ⟨rfl, rfl, _, rfl⟩ := run.of_finish
    exact ⟨addressing.startData false, rfl⟩

theorem firstAddress_addressing
    (atEdge : pci.pciClk = .one)
    (addr : BitVec 64)
    (cmd : BitVec 4) :
    Addressing64 (firstAddress addr cmd true pci) where
  atEdge := atEdge
  frameN := (firstAddress_drives addr cmd true pci).frameN
  irdyN := by
    unfold firstAddress driveAddr
    split <;> nofun
  req64N := by
    unfold firstAddress driveAddr
    split <;> rfl

theorem append_halves (addr : BitVec 64) :
    (addr >>> 32).setWidth 32 ++ addr.setWidth 32 = addr := by
  apply BitVec.eq_of_getLsbD_eq
  intro bit bounded
  rw [BitVec.getLsbD_append]
  by_cases low : bit < 32
  · simp [low]
  · have place : 32 + (bit - 32) = bit := by omega
    have inside : bit - 32 < 32 := by omega
    rw [if_neg low, BitVec.getLsbD_setWidth, BitVec.getLsbD_ushiftRight, place]
    simp [inside]

/-- A memory learns the address from one or two address phases. -/
theorem addressCommand_watched
    (atEdge : pci.pciClk = .one)
    (idle : memory.phase = .idle)
    (run : ClockRun ((addressCommand addr 0xf7 enables true false).start pci)
      cycles outs () final) :
    Writes64 final ∧
      memory.after outs cycles = { memory with phase := .data addr } := by
  by_cases short : (addr >>> 32).setWidth 32 = (0 : BitVec 32)
  · have addressing := firstAddress_addressing atEdge addr
      ((0xf7 : BitVec 32).setWidth 4)
    have edge := edge_single
      (firstAddress_drives addr ((0xf7 : BitVec 32).setWidth 4) true pci) idle
    rw [address_low short] at edge
    rw [addressCommand_single 0xf7 enables true false short] at run
    obtain ⟨cycle, cycles, outs, rfl, rfl, later⟩ :=
      run.of_posedge addressing.atEdge
    rw [BusMemory.after, edge]
    exact endAddress_watched (addressing.clocked cycle) rfl later
  · have addressing := firstAddress_addressing atEdge addr 0xd
    have edge := edge_dualFirst (firstAddress_drives addr 0xd true pci) idle
    rw [addressCommand_dual 0xf7 enables true false short] at run
    obtain ⟨cycle, cycles, outs, rfl, rfl, dual⟩ :=
      run.of_posedge addressing.atEdge
    let between := (firstAddress addr 0xd true pci).clocked cycle
    have stillAddressing : Addressing64 between := addressing.clocked cycle
    have second : Addressing64
        (secondAddress addr ((0xf7 : BitVec 32).setWidth 4) between) :=
      ⟨stillAddressing.atEdge, stillAddressing.frameN, stillAddressing.irdyN,
        stillAddressing.req64N⟩
    obtain ⟨cycle', cycles, outs, rfl, rfl, later⟩ :=
      dual.of_posedge second.atEdge
    rw [BusMemory.after, edge, BusMemory.after,
      edge_dualSecond (secondAddress_drives addr
        ((0xf7 : BitVec 32).setWidth 4) stillAddressing.frameN) rfl, append_halves]
    exact endAddress_watched (second.clocked cycle') rfl later

/-! ## A whole write -/

/-- The arguments of a 64-bit write. -/
structure WordWrite where
  addr : BitVec 64
  val : BitVec 64
  ben : BitVec 32

/-- Store the enabled bytes of a word. -/
def WordWrite.store (write : WordWrite) (bytes : Bytes) : Bytes :=
  storeLanes 8 write.addr write.val (write.ben.setWidth 8) bytes

/--
A 64-bit write to a memory: some clocks until the bus is granted, the address
phases, and the clocks in which the memory takes the word.  The memory listens
from the address phases on.
-/
inductive WritesMemory
    (callbacks : Callbacks User Handle)
    (stack : Nat)
    (write : WordWrite)
    (pci : SimbusPci User Handle)
    (before : Bytes) :
    List ClockCycle → List BiSignals → SimbusPci User Handle → Bytes →
      Prop where
  | taken
      {requesting addressing data : List ClockCycle}
      {requestOuts addressOuts dataOuts : List BiSignals}
      {granted addressed final : SimbusPci User Handle}
      (requests : ClockRun ((pciRequestBus callbacks stack).start pci)
        requesting requestOuts () granted)
      (addresses : ClockRun
        ((driveReqN .one >>= fun _ =>
          addressCommand write.addr 0xf7 write.ben true false).start granted)
        addressing addressOuts () addressed)
      (takes : Takes64 data)
      (sends : ClockRun ((sendWord write.val write.ben).start addressed) data
        dataOuts () final) :
      WritesMemory callbacks stack write pci before
        (requesting ++ (addressing ++ data))
        (requestOuts ++ (addressOuts ++ dataOuts)) final
        (BusMemory.after { phase := .idle, bytes := before }
          (addressOuts ++ dataOuts) (addressing ++ data)).bytes

section WritesMemory

variable {callbacks : Callbacks User Handle}
variable {stack : Nat}
variable {write : WordWrite}
variable {before later : Bytes}

theorem WritesMemory.run
    (writes : WritesMemory callbacks stack write pci before cycles outs final
      later) :
    ClockRun
      ((simbusPciWrite64 callbacks stack write.addr write.val
        write.ben).start pci) cycles outs () final := by
  cases writes with
  | taken requests addresses _ sends =>
      rw [simbusPciWrite64_eq, startTransaction, bind_assoc,
        Program.start_bind]
      refine requests.bind ?_
      rw [Program.start_bind]
      exact addresses.bind sends

/-- A memory holds the enabled bytes of the word afterwards. -/
theorem WritesMemory.stores
    (writes : WritesMemory callbacks stack write pci before cycles outs final
      later)
    (atEdge : pci.pciClk = .one) :
    later = write.store before ∧ final.pciClk = .one := by
  cases writes with
  | @taken requesting addressing data requestOuts addressOuts dataOuts granted
      addressed _ requests addresses takes sends =>
      have grantedEdge : granted.pciClk = .one :=
        requests.atEdge (pciRequestBus_followsClock callbacks stack) atEdge
      let requested : SimbusPci User Handle :=
        { granted with outReqN := .one }
      have requestedEdge : requested.pciClk = .one := grantedEdge
      let listening : BusMemory := { phase := .idle, bytes := before }
      have idle : listening.phase = .idle := rfl
      obtain ⟨writes, listened⟩ :=
        addressCommand_watched requestedEdge idle addresses.of_modifyState
      let addressedMemory : BusMemory :=
        { listening with phase := .data write.addr }
      have inData : addressedMemory.phase = .data write.addr := rfl
      obtain ⟨outs, _, state, run, last, stored⟩ :=
        sendWord_stores writes inData takes write.val write.ben
      obtain ⟨rfl, _, rfl⟩ := run.unique sends
      rw [BusMemory.after_append addresses.length, listened, stored]
      exact ⟨rfl, last.atEdge⟩

end WritesMemory

end

end Simbus.Pci
