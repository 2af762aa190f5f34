import Simbus.Pci.BusMemory

/-!
# The words of a 64-bit write burst

`simbus_pci_write64b` writes its words with a transaction each.  The loop steps the
address by four bytes, so that every word after the first one is put over the
upper half of the word before it.
-/

namespace Simbus.Pci

open FourValued Clocked

/-! ## An array in memory -/

section Arrays

/-- The words of an array from an address on, each with its byte enables. -/
def wordsAt
    (enables : Nat → BitVec 32)
    (addr : BitVec 64)
    (words : List (BitVec 64)) : List WordWrite :=
  words.mapIdx fun idx val =>
    { addr := addr + BitVec.ofNat 64 (8 * idx)
      val := val
      ben := enables idx }

/-- The enabled bytes of an array, and the other bytes of a memory. -/
def mergeWords
    (enables : Nat → BitVec 32)
    (addr : BitVec 64)
    (words : List (BitVec 64))
    (bytes : Bytes) : Bytes :=
  fun place =>
    let offset := (place - addr).toNat
    match words[offset / 8]? with
    | some val =>
        if (enables (offset / 8)).getLsbD (offset % 8) then
          bytes place
        else
          val.extractLsb' (8 * (offset % 8)) 8
    | none => bytes place

/-- Some writes to a memory, one after the other. -/
def storeAll (writes : List WordWrite) (bytes : Bytes) : Bytes :=
  writes.foldl (fun bytes write => write.store bytes) bytes

/-- The bytes of a word of an array. -/
theorem lane_word
    (addr place : BitVec 64)
    {idx : Nat}
    (fits : 8 * (idx + 1) ≤ 2 ^ 64) :
    ((place - (addr + BitVec.ofNat 64 (8 * idx))).toNat < 8 ↔
        (place - addr).toNat / 8 = idx) ∧
      ((place - addr).toNat / 8 = idx →
        (place - (addr + BitVec.ofNat 64 (8 * idx))).toNat =
          (place - addr).toNat % 8) := by
  have split : place - (addr + BitVec.ofNat 64 (8 * idx)) =
      (place - addr) - BitVec.ofNat 64 (8 * idx) := by
    bv_omega
  have small : (BitVec.ofNat 64 (8 * idx)).toNat = 8 * idx := by
    rw [BitVec.toNat_ofNat]
    exact Nat.mod_eq_of_lt (by omega)
  rw [split, BitVec.toNat_sub, small]
  have bounded := (place - addr).isLt
  refine ⟨⟨fun inside => ?_, fun inside => ?_⟩, fun inside => ?_⟩ <;> omega

/-- Writing the words one after the other writes the array. -/
theorem storeAll_wordsAt
    (enables : Nat → BitVec 32)
    (addr : BitVec 64)
    {words : List (BitVec 64)}
    (fits : 8 * words.length ≤ 2 ^ 64)
    (bytes : Bytes) :
    storeAll (wordsAt enables addr words) bytes =
      mergeWords enables addr words bytes := by
  induction words using List.reverseRecOn with
  | nil =>
      rfl
  | append_singleton words val inductionHypothesis =>
      rw [List.length_append, List.length_singleton] at fits
      have before := inductionHypothesis (by omega)
      funext place
      obtain ⟨inWord, lane⟩ := lane_word addr place fits
      have stored : storeAll (wordsAt enables addr (words ++ [val])) bytes =
          WordWrite.store
            { addr := addr + BitVec.ofNat 64 (8 * words.length)
              val := val
              ben := enables words.length }
            (mergeWords enables addr words bytes) := by
        rw [← before, wordsAt, List.mapIdx_append, storeAll, List.foldl_append]
        simp [storeAll, wordsAt]
      rw [stored]
      simp only [WordWrite.store, storeLanes, inWord, mergeWords]
      by_cases last : (place - addr).toNat / 8 = words.length
      · have within : (place - addr).toNat % 8 < 8 := Nat.mod_lt _ (by decide)
        simp only [last, lane last, List.getElem?_concat_length,
          List.getElem?_eq_none (Nat.le_refl _), BitVec.getLsbD_setWidth, within,
          decide_true, Bool.true_and, true_and]
        cases (enables words.length).getLsbD ((place - addr).toNat % 8) <;> rfl
      · have same : (words ++ [val])[(place - addr).toNat / 8]? =
            words[(place - addr).toNat / 8]? := by
          rcases Nat.lt_or_gt_of_ne last with inside | outside
          · exact List.getElem?_append_left inside
          · have past : (words ++ [val]).length ≤ (place - addr).toNat / 8 := by
              rw [List.length_append]
              exact outside
            rw [List.getElem?_eq_none past,
              List.getElem?_eq_none (Nat.le_of_lt outside)]
        simp only [last, same, false_and, if_false]

/-- The byte enables of the words of a burst. -/
def burstEnables (beFn beLn : BitVec 32) (count idx : Nat) : BitVec 32 :=
  if idx = 0 then beFn
  else if idx + 1 = count then beLn
  else 0

/-- The writes of an array, a word after the other at consecutive addresses. -/
def arrayWrites
    (addr : BitVec 64)
    (words : List (BitVec 64))
    (beFn beLn : BitVec 32) : List WordWrite :=
  wordsAt (burstEnables beFn beLn words.length) addr words

/-- A memory with an array written to it. -/
def writeArray
    (addr : BitVec 64)
    (words : List (BitVec 64))
    (beFn beLn : BitVec 32)
    (bytes : Bytes) : Bytes :=
  mergeWords (burstEnables beFn beLn words.length) addr words bytes

end Arrays

section

variable {User Handle Value Result : Type}
variable {callbacks : Callbacks User Handle}
variable {stack : Nat}
variable {write : WordWrite}
variable {writes : List WordWrite}
variable {pci middle final : SimbusPci User Handle}
variable {cycles cyclesLater : List ClockCycle}
variable {outs outsLater : List BiSignals}

/-! ## Writes one after the other -/

/-- The call of some 64-bit writes, one after the other. -/
inductive WritesWords
    (callbacks : Callbacks User Handle)
    (stack : Nat) :
    List WordWrite → SimbusPci User Handle → List ClockCycle →
      List BiSignals → SimbusPci User Handle → Prop where
  | none
      {pci : SimbusPci User Handle} :
      WritesWords callbacks stack [] pci [] [] pci
  | word
      {write : WordWrite}
      {writes : List WordWrite}
      {pci middle final : SimbusPci User Handle}
      {cycles cyclesLater : List ClockCycle}
      {outs outsLater : List BiSignals}
      (once : ClockRun
        ((simbusPciWrite64 callbacks stack write.addr write.val
          write.ben).start pci) cycles outs () middle)
      (rest : WritesWords callbacks stack writes middle cyclesLater outsLater
        final) :
      WritesWords callbacks stack (write :: writes) pci
        (cycles ++ cyclesLater) (outs ++ outsLater) final

/-- The same to a memory that takes the words. -/
inductive StoresWords
    (callbacks : Callbacks User Handle)
    (stack : Nat) :
    List WordWrite → SimbusPci User Handle → Bytes → List ClockCycle →
      List BiSignals → SimbusPci User Handle → Bytes → Prop where
  | none
      {pci : SimbusPci User Handle}
      {bytes : Bytes} :
      StoresWords callbacks stack [] pci bytes [] [] pci bytes
  | word
      {write : WordWrite}
      {writes : List WordWrite}
      {pci middle final : SimbusPci User Handle}
      {before between later : Bytes}
      {cycles cyclesLater : List ClockCycle}
      {outs outsLater : List BiSignals}
      (once : WritesMemory callbacks stack write pci before cycles outs middle
        between)
      (rest : StoresWords callbacks stack writes middle between cyclesLater
        outsLater final later) :
      StoresWords callbacks stack (write :: writes) pci before
        (cycles ++ cyclesLater) (outs ++ outsLater) final later

variable {before later : Bytes}

theorem StoresWords.writesWords
    (stores : StoresWords callbacks stack writes pci before cycles outs final
      later) :
    WritesWords callbacks stack writes pci cycles outs final := by
  induction stores with
  | none =>
      exact .none
  | word once _ inductionHypothesis =>
      exact .word once.run inductionHypothesis

/-- The memory holds what the writes store. -/
theorem StoresWords.stores
    (stores : StoresWords callbacks stack writes pci before cycles outs final
      later)
    (atEdge : pci.pciClk = .one) :
    later = storeAll writes before := by
  induction stores with
  | none =>
      rfl
  | word once _ inductionHypothesis =>
      obtain ⟨rfl, middleEdge⟩ := once.stores atEdge
      exact inductionHypothesis middleEdge

/-- The writes that the loop of `simbus_pci_write64b` does. -/
def steppedWrites
    (beFn beLn : BitVec 32) :
    Bool → BitVec 64 → List (BitVec 64) → List WordWrite
  | _, _, [] => []
  | first, addr, val :: rest =>
      { addr := addr
        val := val
        ben :=
          if first then beFn
          else if rest = [] then beLn
          else 0 } :: steppedWrites beFn beLn false (addr + 4) rest

/-- The loop writes its words one after the other. -/
theorem WritesWords.write64bFrom
    {beFn beLn : BitVec 32}
    {first : Bool}
    {addr : BitVec 64}
    {words : List (BitVec 64)}
    (writesWords : WritesWords callbacks stack
      (steppedWrites beFn beLn first addr words) pci cycles outs final) :
    ClockRun
      ((Pci.write64bFrom callbacks stack beFn beLn first addr words).start pci)
      cycles outs () final := by
  induction words generalizing pci cycles outs first addr with
  | nil =>
      cases writesWords with
      | none => exact .done rfl
  | cons val rest inductionHypothesis =>
      cases writesWords with
      | word once others =>
          rw [Pci.write64bFrom, Program.start_bind]
          exact once.bind (inductionHypothesis others)

/-! ## Calls with a result that takes no time -/

section BindFinish

variable {behavior after : Behavior (SimbusPci User Handle) Reply Value}

theorem Holds.of_bindFinish
    (result : Value → Result)
    {out : BiSignals}
    {replies : List Reply}
    {after : Behavior (SimbusPci User Handle) Reply Result}
    (holds : Holds out (behavior.bind fun value => .finish (result value))
      replies after) :
    ∃ before, Holds out behavior replies before ∧
      after = before.bind fun value => .finish (result value) := by
  generalize isWhole :
    (behavior.bind fun value => .finish (result value)) = whole at holds
  induction holds generalizing behavior with
  | none =>
      exact ⟨behavior, .none, isWhole.symm⟩
  | exchange waits drives _ inductionHypothesis =>
      subst isWhole
      rcases behavior.cases_now with ⟨value, state, rfl⟩ | ⟨state, rfl⟩ |
        ⟨state, isAwait⟩
      · cases waits
      · cases waits
      · rw [isAwait, Behavior.await_bind, Behavior.run_await_nil,
          Outcome.waiting.injEq] at waits
        have resumed (reply : Reply) :
            ((behavior.resume reply).bind fun value =>
              .finish (result value)) =
            (behavior.bind fun value => .finish (result value)).resume
              reply := by
          rw [isAwait, Behavior.await_bind, Behavior.resume_await]
          rfl
        obtain ⟨before, later, isAfter⟩ := inductionHypothesis (resumed _)
        refine ⟨before, .exchange ?_ (waits ▸ drives) later, isAfter⟩
        rw [isAwait]
        rfl

theorem ClockRun.of_bindFinish
    (result : Value → Result)
    {value : Result}
    (run : ClockRun (behavior.bind fun value => .finish (result value)) cycles
      outs value final) :
    ∃ early, ClockRun behavior cycles outs early final := by
  generalize isWhole :
    (behavior.bind fun value => .finish (result value)) = whole at run
  induction run generalizing behavior with
  | done finished =>
      subst isWhole
      rcases behavior.cases_now with ⟨early, state, rfl⟩ | ⟨state, rfl⟩ |
        ⟨state, isAwait⟩
      · obtain ⟨_, rfl⟩ := Behavior.finish_inj finished
        exact ⟨early, .done rfl⟩
      · exact (Behavior.fail_ne_finish _ _ _ finished).elim
      · rw [isAwait, Behavior.await_bind] at finished
        exact (Behavior.ne_finish rfl _ _ finished).elim
  | clock holds _ inductionHypothesis =>
      subst isWhole
      obtain ⟨before, holdsBefore, rfl⟩ := holds.of_bindFinish result
      obtain ⟨early, later⟩ := inductionHypothesis rfl
      exact ⟨early, .clock holdsBefore later⟩

end BindFinish

/-! ## The burst of 64-bit words -/

/-- The arguments that the assertions of `simbus_pci_write64b` let through. -/
def LegalBurst (words : List (BitVec 64)) (beFn beLn : BitVec 32) : Prop :=
  words ≠ [] ∧ (1 < words.length ∨ beFn = beLn)

variable {addr : BitVec 64}
variable {words : List (BitVec 64)}
variable {beFn beLn : BitVec 32}

theorem simbusPciWrite64b_legal
    (legal : LegalBurst words beFn beLn) :
    (simbusPciWrite64b callbacks stack addr words beFn beLn).start pci =
      ((write64bFrom callbacks stack beFn beLn true addr words).start pci).bind
        fun _ => .finish (words.length : Int) := by
  obtain ⟨nonempty, enables⟩ := legal
  simp only [simbusPciWrite64b, Program.start_bind, Program.start_assert,
    nonempty, enables, ne_eq, not_false_eq_true, decide_true, if_true,
    Behavior.finish_bind]
  rfl

theorem simbusPciWrite64b_illegal
    (illegal : ¬ LegalBurst words beFn beLn) :
    (simbusPciWrite64b callbacks stack addr words beFn beLn).start pci =
      .fail pci := by
  rcases not_and_or.mp illegal with empty | enables
  · simp only [simbusPciWrite64b, Program.start_bind, Program.start_assert,
      not_not.mp empty, ne_eq, not_true_eq_false, decide_false,
      Bool.false_eq_true, if_false, Behavior.fail_bind]
  · by_cases empty : words = []
    · simp only [simbusPciWrite64b, Program.start_bind, Program.start_assert,
        empty, ne_eq, not_true_eq_false, decide_false, Bool.false_eq_true,
        if_false, Behavior.fail_bind]
    · simp only [simbusPciWrite64b, Program.start_bind, Program.start_assert,
        empty, enables, ne_eq, not_false_eq_true, decide_true, if_true,
        Behavior.finish_bind, decide_false, Bool.false_eq_true, if_false,
        Behavior.fail_bind]

/-- The words go to the addresses that the loop steps to. -/
theorem WritesWords.simbusPciWrite64b
    (legal : LegalBurst words beFn beLn)
    (writesWords : WritesWords callbacks stack
      (steppedWrites beFn beLn true addr words) pci cycles outs final) :
    ClockRun
      ((Pci.simbusPciWrite64b callbacks stack addr words beFn beLn).start pci)
      cycles outs (words.length : Int) final := by
  have ends : ClockRun
      (.finish (words.length : Int) final :
        Behavior (SimbusPci User Handle) Reply Int) [] []
      (words.length : Int) final := .done rfl
  rw [simbusPciWrite64b_legal legal, ← List.append_nil cycles,
    ← List.append_nil outs]
  exact writesWords.write64bFrom.bind ends

/--
Every run of the call is the writes of an array, a word after the other, and a
memory that takes them has the array written to it.
-/
def WritesArray
    (addr : BitVec 64)
    (words : List (BitVec 64))
    (beFn beLn : BitVec 32) : Prop :=
  ∀ (User Handle : Type) (callbacks : Callbacks User Handle) (stack : Nat)
    (pci final : SimbusPci User Handle) (cycles : List ClockCycle)
    (outs : List BiSignals) (value : Int),
    pci.pciClk = .one →
    ClockRun
      ((simbusPciWrite64b callbacks stack addr words beFn beLn).start pci)
      cycles outs value final →
    WritesWords callbacks stack (arrayWrites addr words beFn beLn) pci cycles
        outs final ∧
      ∀ before later,
        StoresWords callbacks stack (arrayWrites addr words beFn beLn) pci
          before cycles outs final later →
        later = writeArray addr words beFn beLn before

/-- At most one word has nothing to step over. -/
theorem writesArray_short
    (addr : BitVec 64)
    (beFn beLn : BitVec 32)
    (short : words.length ≤ 1) :
    WritesArray addr words beFn beLn := by
  intro User Handle callbacks stack pci final cycles outs value atEdge run
  by_cases legal : LegalBurst words beFn beLn
  · have fits : 8 * words.length ≤ 2 ^ 64 := by omega
    refine ⟨?_, fun before later stores => ?_⟩
    · obtain ⟨val, rfl⟩ : ∃ val, words = [val] := by
        refine List.length_eq_one_iff.mp (Nat.le_antisymm short ?_)
        exact List.length_pos_iff.mpr legal.1
      rw [simbusPciWrite64b_legal legal] at run
      obtain ⟨_, loop⟩ :=
        ClockRun.of_bindFinish (fun _ => ([val].length : Int)) run
      rw [write64bFrom, Program.start_bind] at loop
      obtain ⟨_, once⟩ := ClockRun.of_bindFinish (fun _ => ()) loop
      have single : arrayWrites addr [val] beFn beLn = [⟨addr, val, beFn⟩] := by
        simp [arrayWrites, wordsAt, burstEnables]
      rw [single, ← List.append_nil cycles, ← List.append_nil outs]
      exact .word once .none
    · rw [stores.stores atEdge, arrayWrites, storeAll_wordsAt _ _ fits]
      rfl
  · rw [simbusPciWrite64b_illegal legal] at run
    exact run.not_fail.elim

/-! ## A master that has the bus -/

/-- A master that is granted an idle bus, at an edge. -/
structure HasBus (pci : SimbusPci User Handle) : Prop where
  atEdge : pci.pciClk = .one
  ready : ¬ busNotReady pci

theorem HasBus.requests
    (hasBus : HasBus pci)
    (callbacks : Callbacks User Handle)
    (stack : Nat) :
    (pciRequestBus callbacks (stack + 1)).start pci =
      .finish () { pci with outReqN := .one } := by
  have unfolded : pciRequestBus callbacks (stack + 1) =
      requestBusWith (pciTargetStateMachine callbacks
        (pciRequestBus callbacks stack)) := by
    rw [pciRequestBus]
  rw [unfolded]
  exact requestBusWith_granted hasBus.ready _

/-- What a memory shows that takes 64 bits at once. -/
def takenWhole : BiSignals :=
  { BiSignals.released with
    trdyN := .zero
    devselN := .zero
    ack64N := .zero }

/-- The address phases of a master that has a conventional bus. -/
theorem addressCommand_conventional
    (addr : BitVec 64)
    (cmd enables : BitVec 32)
    (flag64 burst : Bool)
    (atEdge : pci.pciClk = .one) :
    ∃ cycles outs addressed,
      ClockRun ((addressCommand addr cmd enables flag64 burst).start pci) cycles
        outs () addressed := by
  by_cases short : (addr >>> 32).setWidth 32 = (0 : BitVec 32)
  · obtain ⟨outs, _, addressed, run, _⟩ := addressCommand_granted addr cmd
      enables flag64 burst BiSignals.released short atEdge
    exact ⟨_, outs, addressed, run⟩
  · let idle := grantedClock BiSignals.released
    let first := firstAddress addr 0xd flag64 pci
    have firstEdge : first.pciClk = .one := atEdge
    let second := secondAddress addr (cmd.setWidth 4) (first.clocked idle)
    have secondEdge : second.pciClk = .one := clocked_pciClk first idle
    have conventional : (second.clocked idle).pcixcap ≠ .one := by
      rw [clocked_pcixcap]
      exact (nofun : Logic4.zero ≠ .one)
    have ends : ClockRun
        ((endAddress enables burst).start (second.clocked idle)) [] [] ()
        (startData burst (second.clocked idle)) :=
      .done (endAddress_start conventional enables burst)
    have later : ClockRun ((pciNextPosedge.start second).bind fun _ =>
        (endAddress enables burst).start) [idle] [second.out] ()
        (startData burst (second.clocked idle)) := .posedge_bind secondEdge ends
    rw [addressCommand_dual cmd enables flag64 burst short]
    exact ⟨_, _, _, later.posedge_bind firstEdge⟩

/-- A memory takes 64 bits at once. -/
theorem takes64_granted :
    Takes64 [grantedClock takenWhole, grantedClock BiSignals.released] := by
  have selects : Selects (grantedClock takenWhole) [] takenWhole :=
    ⟨.here (.inl rfl), rfl, Nat.zero_le 3⟩
  exact .whole selects (.here (.inl rfl)) rfl rfl rfl

/-- After a clock of a granted bus that is released a master has the bus. -/
theorem LastClocked.hasBus
    (lastClocked : LastClocked cycles pci)
    (idle : cycles.getLast? = some (grantedClock BiSignals.released)) :
    HasBus pci := by
  obtain ⟨before, last, isLast, rfl⟩ := lastClocked
  rw [idle, Option.some.injEq] at isLast
  subst isLast
  refine ⟨clocked_pciClk _ _, ?_⟩
  unfold busNotReady
  rw [clocked_seen, clocked_pciGntN]
  decide

/-- A master that has the bus writes a word to a memory. -/
theorem HasBus.writesMemory
    (hasBus : HasBus pci)
    (callbacks : Callbacks User Handle)
    (stack : Nat)
    (write : WordWrite)
    (before : Bytes) :
    ∃ cycles outs final later,
      WritesMemory callbacks (stack + 1) write pci before cycles outs final
        later ∧ HasBus final := by
  let requested : SimbusPci User Handle := { pci with outReqN := .one }
  have requests : ClockRun ((pciRequestBus callbacks (stack + 1)).start pci)
      [] [] () requested := .done (hasBus.requests callbacks stack)
  have requestedEdge : requested.pciClk = .one := hasBus.atEdge
  obtain ⟨addressing, addressOuts, addressed, addresses⟩ :=
    addressCommand_conventional write.addr 0xf7 write.ben true false
      requestedEdge
  let listening : BusMemory := { phase := .idle, bytes := before }
  have idle : listening.phase = .idle := rfl
  obtain ⟨writes, _⟩ := addressCommand_watched requestedEdge idle addresses
  let addressedMemory : BusMemory :=
    { listening with phase := .data write.addr }
  have inData : addressedMemory.phase = .data write.addr := rfl
  obtain ⟨dataOuts, _, final, sends, last, _⟩ :=
    sendWord_stores writes inData takes64_granted write.val write.ben
  have addressRun : ClockRun
      ((driveReqN .one >>= fun _ =>
        addressCommand write.addr 0xf7 write.ben true false).start requested)
      addressing addressOuts () addressed := by
    rw [Program.start_bind, driveReqN, Program.start_modifyState,
      Behavior.finish_bind]
    exact addresses
  exact ⟨_, _, final, _, .taken requests addressRun takes64_granted sends,
    last.hasBus rfl⟩

/-- And some words. -/
theorem HasBus.storesWords
    (hasBus : HasBus pci)
    (callbacks : Callbacks User Handle)
    (stack : Nat)
    (writes : List WordWrite)
    (before : Bytes) :
    ∃ cycles outs final later,
      StoresWords callbacks (stack + 1) writes pci before cycles outs final
        later := by
  induction writes generalizing pci before with
  | nil =>
      exact ⟨[], [], pci, before, .none⟩
  | cons write writes inductionHypothesis =>
      obtain ⟨cycles, outs, middle, between, once, still⟩ :=
        hasBus.writesMemory callbacks stack write before
      obtain ⟨cyclesLater, outsLater, final, later, rest⟩ :=
        inductionHypothesis still between
      exact ⟨_, _, final, later, .word once rest⟩

/-- A 64-bit transaction drives its whole address at once. -/
theorem firstAddress_ad
    (addr : BitVec 64)
    (cmd : BitVec 4)
    (pci : SimbusPci User Handle) :
    sampleWord (firstAddress addr cmd true pci).out.ad = addr := by
  simp [firstAddress, driveAddr, startFrame, driveLowBe]

theorem addressCommand_firstOut
    {next : Unit → SimbusPci User Handle →
      Behavior (SimbusPci User Handle) Reply Value}
    {cmd enables : BitVec 32}
    {burst : Bool}
    {value : Value}
    (atEdge : pci.pciClk = .one)
    (run : ClockRun
      (((addressCommand addr cmd enables true burst).start pci).bind next)
      cycles outs value final) :
    ∃ out outsLater, outs = out :: outsLater ∧ sampleWord out.ad = addr := by
  by_cases short : (addr >>> 32).setWidth 32 = (0 : BitVec 32)
  · rw [addressCommand_single cmd enables true burst short,
      Behavior.bind_assoc] at run
    let first := firstAddress addr (cmd.setWidth 4) true pci
    have firstEdge : first.pciClk = .one := atEdge
    obtain ⟨_, _, outsLater, _, rfl, _⟩ := run.of_posedge firstEdge
    exact ⟨first.out, outsLater, rfl, firstAddress_ad addr _ pci⟩
  · rw [addressCommand_dual cmd enables true burst short,
      Behavior.bind_assoc] at run
    let first := firstAddress addr 0xd true pci
    have firstEdge : first.pciClk = .one := atEdge
    obtain ⟨_, _, outsLater, _, rfl, _⟩ := run.of_posedge firstEdge
    exact ⟨first.out, outsLater, rfl, firstAddress_ad addr _ pci⟩

/-- A master that has the bus drives the address in its first clock. -/
theorem HasBus.firstOut
    (hasBus : HasBus pci)
    (run : ClockRun
      ((simbusPciWrite64 callbacks (stack + 1) write.addr write.val
        write.ben).start pci) cycles outs () final) :
    ∃ out outsLater, outs = out :: outsLater ∧
      sampleWord out.ad = write.addr := by
  rw [simbusPciWrite64_eq, startTransaction, bind_assoc, Program.start_bind,
    hasBus.requests, Behavior.finish_bind, bind_assoc, Program.start_bind,
    driveReqN, Program.start_modifyState, Behavior.finish_bind,
    Program.start_bind] at run
  let requested : SimbusPci User Handle := { pci with outReqN := .one }
  have requestedEdge : requested.pciClk = .one := hasBus.atEdge
  exact addressCommand_firstOut requestedEdge run

/-! ## The addresses of a burst -/

/-- Two calls that go through the same clocks in the same way. -/
theorem ClockRun.same
    {behavior : Behavior (SimbusPci User Handle) Reply Unit}
    {cycles' cyclesLater' : List ClockCycle}
    {outs' outsLater' : List BiSignals}
    {middle' : SimbusPci User Handle}
    (run : ClockRun behavior cycles outs () middle)
    (run' : ClockRun behavior cycles' outs' () middle')
    (sameCycles : cycles ++ cyclesLater = cycles' ++ cyclesLater')
    (sameOuts : outs ++ outsLater = outs' ++ outsLater') :
    middle' = middle ∧ outsLater = outsLater' := by
  have same : cycles' = cycles := by
    rcases List.append_eq_append_iff.mp sameCycles with
      ⟨more, rfl, _⟩ | ⟨more, rfl, _⟩
    · obtain rfl := run.of_prefix run'
      exact List.append_nil _
    · obtain rfl := run'.of_prefix run
      exact (List.append_nil _).symm
  subst same
  obtain ⟨rfl, _, rfl⟩ := run.unique run'
  exact ⟨rfl, List.append_cancel_left sameOuts⟩

theorem WritesWords.cons
    (writesWords : WritesWords callbacks stack (write :: writes) pci cycles outs
      final) :
    ∃ cycles' cyclesLater outs' outsLater middle,
      cycles = cycles' ++ cyclesLater ∧ outs = outs' ++ outsLater ∧
      ClockRun
        ((simbusPciWrite64 callbacks stack write.addr write.val
          write.ben).start pci) cycles' outs' () middle ∧
      WritesWords callbacks stack writes middle cyclesLater outsLater
        final := by
  cases writesWords with
  | word once rest =>
      exact ⟨_, _, _, _, _, rfl, rfl, once, rest⟩

/-- Two masters that have the bus and drive the same write to the same address. -/
theorem HasBus.sameAddr
    {write' : WordWrite}
    {cycles' : List ClockCycle}
    {outs' outsLater' : List BiSignals}
    {final' : SimbusPci User Handle}
    (hasBus : HasBus pci)
    (run : ClockRun
      ((simbusPciWrite64 callbacks (stack + 1) write.addr write.val
        write.ben).start pci) cycles outs () final)
    (run' : ClockRun
      ((simbusPciWrite64 callbacks (stack + 1) write'.addr write'.val
        write'.ben).start pci) cycles' outs' () final')
    (sameOuts : outs ++ outsLater = outs' ++ outsLater') :
    write.addr = write'.addr := by
  obtain ⟨out, others, rfl, isAddr⟩ := hasBus.firstOut run
  obtain ⟨out', others', rfl, isAddr'⟩ := hasBus.firstOut run'
  obtain ⟨rfl, _⟩ := List.cons_eq_cons.mp sameOuts
  exact isAddr.symm.trans isAddr'

theorem arrayWrites_two
    (addr val val' : BitVec 64)
    (rest : List (BitVec 64))
    (beFn beLn : BitVec 32) :
    ∃ ben others, arrayWrites addr (val :: val' :: rest) beFn beLn =
      ⟨addr, val, beFn⟩ :: ⟨addr + 8, val', ben⟩ :: others := by
  have first : addr + BitVec.ofNat 64 (8 * 0) = addr := BitVec.add_zero addr
  rw [arrayWrites, wordsAt, List.mapIdx_cons, List.mapIdx_cons, first]
  exact ⟨_, _, rfl⟩

/-- A master that has the bus writes two words to addresses four bytes apart. -/
theorem not_writesArray
    (addr val val' : BitVec 64)
    (rest : List (BitVec 64))
    (beFn beLn : BitVec 32) :
    ¬ WritesArray addr (val :: val' :: rest) beFn beLn := by
  intro array
  have legal : LegalBurst (val :: val' :: rest) beFn beLn :=
    ⟨List.cons_ne_nil _ _, .inl (by simp)⟩
  have hasBus : HasBus readyMaster := ⟨rfl, readyMaster_ready⟩
  let second : WordWrite :=
    { addr := addr + 4
      val := val'
      ben := if rest = [] then beLn else 0 }
  obtain ⟨_, _, middle, between, once, still⟩ :=
    hasBus.writesMemory noCallbacks 0 ⟨addr, val, beFn⟩ fun _ => 0
  obtain ⟨_, _, middle', between', twice, stillLater⟩ :=
    still.writesMemory noCallbacks 0 second between
  obtain ⟨_, _, final, _, others⟩ := stillLater.storesWords noCallbacks 0
    (steppedWrites beFn beLn false (addr + 4 + 4) rest) between'
  have stores : StoresWords noCallbacks 1
      (steppedWrites beFn beLn true addr (val :: val' :: rest)) readyMaster
      (fun _ => 0) _ _ final _ := .word once (.word twice others)
  obtain ⟨writesWords, _⟩ := array Unit Unit noCallbacks 1 readyMaster final _ _
    _ rfl (stores.writesWords.simbusPciWrite64b legal)
  obtain ⟨ben, others', isArray⟩ :=
    arrayWrites_two addr val val' rest beFn beLn
  rw [isArray] at writesWords
  obtain ⟨_, _, _, _, _, sameCycles, sameOuts, once', rest'⟩ := writesWords.cons
  obtain ⟨rfl, sameLater⟩ := once.run.same once' sameCycles sameOuts
  obtain ⟨_, _, _, _, _, rfl, rfl, twice', _⟩ := rest'.cons
  have sameAddr := still.sameAddr twice.run twice' sameLater
  change addr + 4 = addr + 8 at sameAddr
  bv_omega

/--
The call writes the words of the array if and only if there is at most one of them.
-/
theorem writesArray_iff
    (addr : BitVec 64)
    (words : List (BitVec 64))
    (beFn beLn : BitVec 32) :
    WritesArray addr words beFn beLn ↔ words.length ≤ 1 := by
  refine ⟨fun array => ?_, writesArray_short addr beFn beLn⟩
  match words with
  | [] => exact Nat.zero_le 1
  | [_] => exact Nat.le_refl 1
  | val :: val' :: rest =>
      exact (not_writesArray addr val val' rest beFn beLn array).elim

/-- The second word is put over the upper half of the first one. -/
theorem secondWord_overlaps :
    ¬ WritesArray 0 [1, 2] 0 0 ∧
      ∃ cycles outs final later,
        ClockRun
          ((simbusPciWrite64b noCallbacks 1 0 [1, 2] 0 0).start readyMaster)
          cycles outs 2 final ∧
        StoresWords noCallbacks 1 (steppedWrites 0 0 true 0 [1, 2]) readyMaster
          (fun _ => 0) cycles outs final later ∧
        later 4 = 2 ∧ writeArray 0 [1, 2] 0 0 (fun _ => 0) 4 = 0 ∧
        later 8 = 0 ∧ writeArray 0 [1, 2] 0 0 (fun _ => 0) 8 = 2 := by
  refine ⟨not_writesArray 0 1 2 [] 0 0, ?_⟩
  have hasBus : HasBus readyMaster := ⟨rfl, readyMaster_ready⟩
  have legal : LegalBurst [1, 2] 0 0 := ⟨List.cons_ne_nil _ _, .inr rfl⟩
  obtain ⟨cycles, outs, final, later, stores⟩ := hasBus.storesWords noCallbacks 0
    (steppedWrites 0 0 true 0 [1, 2]) fun _ => 0
  refine ⟨cycles, outs, final, later,
    stores.writesWords.simbusPciWrite64b legal, stores, ?_⟩
  rw [stores.stores rfl]
  decide

end

end Simbus.Pci
