import Simbus.Pci.RisingEdge
import Simbus.Pci.TargetIdle
import Mathlib

/-!
# Split completions

A PCI-X target that has split a read becomes the master of a split completion: an
address phase, an attribute phase, the wait for DEVSEL# and one clock for each
word.  The lane of C/BE# for the highest bit of the byte count tests two other
bits.
-/

namespace Simbus.Pci

open FourValued Clocked

section

variable {User Handle : Type}

/-! ## The words of a read -/

/-- Words one after the other. -/
def wordsFrom : Nat → BitVec 64 → List (BitVec 64)
  | 0, _ => []
  | wordCount + 1, useAddr => useAddr :: wordsFrom wordCount (useAddr + 4)

/-- The words of a read, by the formula of the source. -/
def splitWords (addr : BitVec 64) (byteCount : Nat) : List (BitVec 64) :=
  wordsFrom ((addr.toNat % 4 + byteCount + 3) / 4) (addr &&& ~~~3)

/-- Some words cover some bytes, each once and in order. -/
structure Covers
    (addr : BitVec 64)
    (byteCount : Nat)
    (words : List (BitVec 64)) : Prop where
  exactly : ∀ word, word ∈ words ↔
    ∃ offset < byteCount, word = (addr + BitVec.ofNat 64 offset) &&& ~~~3
  once : words.Nodup
  inOrder : words.IsChain fun word next => next = word + 4

theorem next_word
    (useAddr : BitVec 64)
    (idx : Nat) :
    useAddr + 4 + BitVec.ofNat 64 (4 * idx) =
      useAddr + BitVec.ofNat 64 (4 * (idx + 1)) := by
  have four : (4 : BitVec 64).toNat = 4 := rfl
  apply BitVec.eq_of_toNat_eq
  simp only [BitVec.toNat_add, BitVec.toNat_ofNat, four]
  omega

theorem mem_wordsFrom
    {word : BitVec 64}
    {wordCount : Nat}
    {useAddr : BitVec 64} :
    word ∈ wordsFrom wordCount useAddr ↔
      ∃ idx < wordCount, word = useAddr + BitVec.ofNat 64 (4 * idx) := by
  induction wordCount generalizing useAddr with
  | zero =>
      simp [wordsFrom]
  | succ wordCount inductionHypothesis =>
      rw [wordsFrom, List.mem_cons, inductionHypothesis]
      constructor
      · rintro (rfl | ⟨idx, inside, rfl⟩)
        · exact ⟨0, Nat.succ_pos _, by simp⟩
        · exact ⟨idx + 1, Nat.succ_lt_succ inside, next_word useAddr idx⟩
      · rintro ⟨idx, inside, rfl⟩
        cases idx with
        | zero =>
            exact .inl (by simp)
        | succ idx =>
            exact .inr ⟨idx, Nat.lt_of_succ_lt_succ inside,
              (next_word useAddr idx).symm⟩

theorem wordsFrom_nodup
    {wordCount : Nat}
    (bounded : 4 * wordCount < 2 ^ 64)
    (useAddr : BitVec 64) :
    (wordsFrom wordCount useAddr).Nodup := by
  induction wordCount generalizing useAddr with
  | zero =>
      exact List.nodup_nil
  | succ wordCount inductionHypothesis =>
      refine List.nodup_cons.mpr ⟨fun member => ?_,
        inductionHypothesis (by omega) (useAddr + 4)⟩
      obtain ⟨idx, inside, same⟩ := mem_wordsFrom.mp member
      rw [next_word] at same
      have sameNat := congrArg BitVec.toNat same
      simp only [BitVec.toNat_add, BitVec.toNat_ofNat] at sameNat
      omega

theorem wordsFrom_inOrder
    (wordCount : Nat)
    (useAddr : BitVec 64) :
    (wordsFrom wordCount useAddr).IsChain fun word next => next = word + 4 := by
  induction wordCount generalizing useAddr with
  | zero =>
      exact .nil
  | succ wordCount inductionHypothesis =>
      cases wordCount with
      | zero =>
          exact .singleton _
      | succ wordCount =>
          exact .cons_cons rfl (inductionHypothesis (useAddr + 4))

/-- Clearing two bits rounds down to a multiple of 4. -/
theorem toNat_and_not_three (word : BitVec 64) :
    (word &&& ~~~(3 : BitVec 64)).toNat = word.toNat / 4 * 4 := by
  have cleared : word &&& ~~~(3 : BitVec 64) = (word >>> 2) <<< 2 := by
    apply BitVec.eq_of_getLsbD_eq
    intro bit inside
    have small : (3 : BitVec 64) = (3 : BitVec 2).setWidth 64 := rfl
    simp only [BitVec.getLsbD_and, BitVec.getLsbD_not,
      BitVec.getLsbD_shiftLeft, BitVec.getLsbD_ushiftRight, small,
      BitVec.getLsbD_setWidth, inside, decide_true, Bool.true_and]
    by_cases low : bit < 2
    · interval_cases bit <;> simp
    · have above : 2 ≤ bit := Nat.not_lt.mp low
      rw [BitVec.getLsbD_of_ge _ _ above, Nat.add_sub_cancel' above]
      simp [low]
  rw [cleared, BitVec.toNat_shiftLeft, BitVec.toNat_ushiftRight,
    Nat.shiftRight_eq_div_pow, Nat.shiftLeft_eq]
  have bounded := word.isLt
  omega

/-- The word of the byte at an offset. -/
theorem byte_word
    (addr : BitVec 64)
    (offset : Nat) :
    (addr + BitVec.ofNat 64 offset) &&& ~~~3 =
      (addr &&& ~~~3) + BitVec.ofNat 64 (4 * ((addr.toNat % 4 + offset) / 4)) := by
  apply BitVec.eq_of_toNat_eq
  rw [BitVec.toNat_add, toNat_and_not_three, toNat_and_not_three,
    BitVec.toNat_add, BitVec.toNat_ofNat, BitVec.toNat_ofNat]
  omega

/-- The formula of the source is right. -/
theorem splitWords_covers
    {addr : BitVec 64}
    {byteCount : Nat}
    (some : 0 < byteCount)
    (bounded : byteCount < 4096) :
    Covers addr byteCount (splitWords addr byteCount) where
  exactly := by
    intro word
    rw [splitWords, mem_wordsFrom]
    constructor
    · rintro ⟨idx, inside, rfl⟩
      refine ⟨4 * idx - addr.toNat % 4, by omega, ?_⟩
      rw [byte_word]
      have same : (addr.toNat % 4 + (4 * idx - addr.toNat % 4)) / 4 = idx := by
        omega
      rw [same]
    · rintro ⟨offset, inside, rfl⟩
      exact ⟨(addr.toNat % 4 + offset) / 4, by omega, byte_word addr offset⟩
  once := wordsFrom_nodup (by omega) _
  inOrder := wordsFrom_inOrder _ _

/-! ## The parts of the function -/

/-- The split response, and everything up to the bus grant. -/
def splitUntilGranted
    (requestBus : Call User Handle Unit) : Call User Handle Unit := do
  drive fun out =>
    { out with
      devselN := .zero, ack64N := .one, trdyN := .one, stopN := .one }
  pciNextPosedge
  drive fun out =>
    { out with
      devselN := .one, trdyN := .zero, stopN := .one, ad := fun _ => .one }
  pciNextPosedge
  drive fun out =>
    releaseAd
      { out with
        devselN := .one, ack64N := .one, trdyN := .one, stopN := .one }
  pciNextPosedge
  undriveBus
  setTargetState .idle
  pciNextPosedges 10
  requestBus

/-- After the last clock of data. -/
def completionRelease : Call User Handle Unit := do
  drive fun out => { out with frameN := .one, irdyN := .one }
  pciNextPosedge
  undriveBus
  setTargetState .idle
  pciNextPosedge

/-- After the last word. -/
def completionEnd (wordCount : Nat) : Call User Handle Unit := do
  pciNextPosedges (if wordCount = 1 then 1 else 0)
  completionRelease

/-- The wait for DEVSEL# and the words. -/
def completionData
    (callbacks : Callbacks User Handle)
    (bar : Fin 8)
    (addr : BitVec 64)
    (byteCount : Nat) : Call User Handle Unit := do
  Program.whileDo (fun pci => pci.seen.devselN ≠ .zero) pciNextPosedge
  let wordCount := (addr.toNat % 4 + byteCount + 3) / 4
  splitCompletionWords callbacks bar wordCount (addr &&& ~~~3)
  completionEnd wordCount

/-- The split completion, of a master that has the bus. -/
def splitCompletion
    (callbacks : Callbacks User Handle)
    (bar : Fin 8)
    (addr : BitVec 64)
    (attr : BitVec 32)
    (byteCount : Nat) : Call User Handle Unit := do
  drive fun out => { out with frameN := .zero, req64N := .one }
  drive (driveAddress (splitCompletionAddress addr attr))
  drive (driveBe 0xcc)
  pciNextPosedge
  let pci ← Program.getState
  drive (driveAddress (splitCompletionAttribute pci.ident byteCount))
  drive (driveBe (0xf#4 ++ splitCompletionUpperCount byteCount))
  pciNextPosedge
  drive (driveLowBe 0xf)
  completionData callbacks bar addr byteCount

theorem doTargetMemoryReadSplit_eq
    (callbacks : Callbacks User Handle)
    (requestBus : Call User Handle Unit)
    (bar : Fin 8)
    (addr : BitVec 64)
    (attr : BitVec 32)
    (byteCount : Nat) :
    doTargetMemoryReadSplit callbacks requestBus bar addr attr byteCount =
      splitUntilGranted requestBus >>= fun _ =>
        splitCompletion callbacks bar addr attr byteCount := by
  simp only [doTargetMemoryReadSplit, splitUntilGranted, splitCompletion,
    completionData, completionEnd, completionRelease, bind_assoc]

/-! ## The words on the bus -/

/-- `need32` is called for some words one after the other, and gives these. -/
inductive Needs
    (callbacks : Callbacks User Handle)
    (bar : Fin 8) :
    List (BitVec 64) → Device User Handle → List (BitVec 32) →
      Device User Handle → Prop where
  | none
      {device : Device User Handle} :
      Needs callbacks bar [] device [] device
  | word
      {addr : BitVec 64}
      {addrs : List (BitVec 64)}
      {device final : Device User Handle}
      {handle : Handle}
      {vals : List (BitVec 32)}
      (isHandle : (device.memTarget bar).need32 = some handle)
      (later : Needs callbacks bar addrs
        (callbacks.need32 handle addr 0 device).2 vals final) :
      Needs callbacks bar (addr :: addrs) device
        ((callbacks.need32 handle addr 0 device).1 :: vals) final

/-- A data phase with a word. -/
structure DrivesWord (out : BiSignals) (val : BitVec 32) : Prop where
  frameN : out.frameN = .zero
  irdyN : out.irdyN = .zero
  ad : ∀ line, out.ad (lowLine line) = driveWord val line

theorem DrivesWord.same
    {out out' : BiSignals}
    {val : BitVec 32}
    (drives : DrivesWord out val)
    (same : SameDrive out out') :
    DrivesWord out' val := by
  obtain ⟨_, _, rfl⟩ := same
  exact ⟨drives.frameN, drives.irdyN, drives.ad⟩

/-- A master that sends a word it has got from `need32`. -/
def sendingWord
    (callbacks : Callbacks User Handle)
    (handle : Handle)
    (useAddr : BitVec 64)
    (pci : SimbusPci User Handle) : SimbusPci User Handle :=
  { pci with
    out :=
      driveAddress (callbacks.need32 handle useAddr 0 pci.device).1
        { pci.out with irdyN := .zero }
    device := (callbacks.need32 handle useAddr 0 pci.device).2 }

theorem sendingWord_drives
    {pci : SimbusPci User Handle}
    (framed : pci.out.frameN = .zero)
    (callbacks : Callbacks User Handle)
    (handle : Handle)
    (useAddr : BitVec 64) :
    DrivesWord (sendingWord callbacks handle useAddr pci).out
      (callbacks.need32 handle useAddr 0 pci.device).1 where
  frameN := framed
  irdyN := rfl
  ad := fun line => dif_pos line.isLt

theorem splitCompletionWords_start
    {callbacks : Callbacks User Handle}
    {bar : Fin 8}
    {handle : Handle}
    {pci : SimbusPci User Handle}
    (isHandle : (pci.device.memTarget bar).need32 = some handle)
    (wordCount : Nat)
    (useAddr : BitVec 64) :
    (splitCompletionWords callbacks bar (wordCount + 1) useAddr).start pci =
      (pciNextPosedge.start (sendingWord callbacks handle useAddr pci)).bind
        fun _ =>
          (splitCompletionWords callbacks bar wordCount
            (useAddr + 4)).start := by
  simp only [splitCompletionWords, drive, Program.start_bind,
    Program.start_modifyState, Program.start_getState, Behavior.finish_bind,
    barOf, isHandle, callNeed32OrFail, callNeed32, Program.start_pure]
  rfl

theorem splitCompletionWords_fail
    (callbacks : Callbacks User Handle)
    {bar : Fin 8}
    {pci : SimbusPci User Handle}
    (noHandle : (pci.device.memTarget bar).need32 = none)
    (wordCount : Nat)
    (useAddr : BitVec 64) :
    ∃ state, (splitCompletionWords callbacks bar (wordCount + 1) useAddr).start
      pci = .fail state := by
  simp only [splitCompletionWords, drive, Program.start_bind,
    Program.start_modifyState, Program.start_getState, Behavior.finish_bind,
    barOf, noHandle, callNeed32OrFail, Program.start_abort, Behavior.fail_bind]
  exact ⟨_, rfl⟩

/-- One clock for each word. -/
theorem ClockRun.of_splitCompletionWords
    {callbacks : Callbacks User Handle}
    {bar : Fin 8}
    {wordCount : Nat}
    {useAddr : BitVec 64}
    {pci final : SimbusPci User Handle}
    {next : Unit → SimbusPci User Handle →
      Behavior (SimbusPci User Handle) Reply Unit}
    {cycles : List ClockCycle}
    {outs : List BiSignals}
    (atEdge : pci.pciClk = .one)
    (framed : pci.out.frameN = .zero)
    (run : ClockRun
      (((splitCompletionWords callbacks bar wordCount useAddr).start pci).bind
        next)
      cycles outs () final) :
    ∃ cyclesLater data outsLater vals after,
      outs = data ++ outsLater ∧
      Needs callbacks bar (wordsFrom wordCount useAddr) pci.device vals
        after.device ∧
      List.Forall₂ DrivesWord data vals ∧
      (vals = [] → after = pci) ∧
      (∀ val ∈ vals.getLast?, DrivesWord after.out val) ∧
      after.pciClk = .one ∧
      ClockRun (next () after) cyclesLater outsLater () final := by
  induction wordCount generalizing useAddr pci cycles outs with
  | zero =>
      exact ⟨cycles, [], outs, [], pci, rfl, .none, .nil, fun _ => rfl, nofun,
        atEdge, run⟩
  | succ wordCount inductionHypothesis =>
      cases isHandle : (pci.device.memTarget bar).need32 with
      | none =>
          obtain ⟨state, fails⟩ :=
            splitCompletionWords_fail callbacks isHandle wordCount useAddr
          rw [fails] at run
          exact run.not_fail.elim
      | some handle =>
          let sending := sendingWord callbacks handle useAddr pci
          have drives := sendingWord_drives framed callbacks handle useAddr
          rw [splitCompletionWords_start isHandle, Behavior.bind_assoc] at run
          obtain ⟨cycle, cycles, outs, rfl, rfl, later⟩ :=
            run.of_posedge (show sending.pciClk = .one from atEdge)
          have stillFramed : (sending.clocked cycle).out.frameN = .zero :=
            (clocked_frameN _ _).trans framed
          obtain ⟨cyclesLater, data, outsLater, vals, after, rfl, needs, words,
            unchanged, last, afterEdge, rest⟩ :=
            inductionHypothesis (clocked_pciClk _ _) stillFramed later
          rw [clocked_device] at needs
          refine ⟨cyclesLater, sending.out :: data, outsLater, _, after, rfl,
            .word isHandle needs, .cons drives words, nofun, ?_, afterEdge,
            rest⟩
          intro val isLast
          cases vals with
          | nil =>
              cases isLast
              rw [unchanged rfl]
              exact drives.same (clocked_out _ cycle)
          | cons first vals =>
              exact last val isLast

/-! ## The fields of the two phases -/

/-- A target reads these fields of the request back from an address phase. -/
def ReadsRequest
    (addr : BitVec 64)
    (attr : BitVec 32)
    (out : BiSignals) : Prop :=
  ∀ target : SimbusPci Unit Unit, CarriesAddress out target.seen →
    getCommand target = 0xc ∧
      (∀ bit < 7, (getLowWord target).getLsbD bit = addr.getLsbD bit) ∧
      ∀ bit, 8 ≤ bit → bit ≤ 28 →
        (getLowWord target).getLsbD bit = attr.getLsbD bit

/-- A target reads this byte count back from an attribute phase. -/
def ReadsByteCount (byteCount : Nat) (out : BiSignals) : Prop :=
  ∀ target : SimbusPci Unit Unit, CarriesAddress out target.seen →
    attributeByteCount target = byteCount

theorem driveBe_drivesAddress
    {out : BiSignals}
    {word : BitVec 32}
    (high cmd : BitVec 4)
    (framed : out.frameN = .zero) :
    DrivesAddress (driveBe (high ++ cmd) (driveAddress word out)) cmd word where
  frameN := framed
  cBe := fun lane => by
    have same : (high ++ cmd)[lane.val] = cmd[lane.val] := by
      rw [BitVec.getElem_append, dif_pos lane.isLt]
    exact congrArg Logic4.ofBool same
  ad := fun line => dif_pos line.isLt

/-- What a master drives in the address phase of a split completion. -/
def completionAddress
    (addr : BitVec 64)
    (attr : BitVec 32)
    (out : BiSignals) : BiSignals :=
  driveBe 0xcc (driveAddress (splitCompletionAddress addr attr)
    { out with frameN := .zero, req64N := .one })

/-- What a master drives in the attribute phase of a split completion. -/
def completionAttribute
    (ident byteCount : Nat)
    (out : BiSignals) : BiSignals :=
  driveBe (0xf#4 ++ splitCompletionUpperCount byteCount)
    (driveAddress (splitCompletionAttribute ident byteCount) out)

theorem completionAddress_drives
    (addr : BitVec 64)
    (attr : BitVec 32)
    (out : BiSignals) :
    DrivesAddress (completionAddress addr attr out) 0xc
      (splitCompletionAddress addr attr) :=
  driveBe_drivesAddress 0xc 0xc rfl

theorem completionAttribute_drives
    {out : BiSignals}
    (ident byteCount : Nat)
    (framed : out.frameN = .zero) :
    DrivesAddress (completionAttribute ident byteCount out)
      (splitCompletionUpperCount byteCount)
      (splitCompletionAttribute ident byteCount) :=
  driveBe_drivesAddress _ _ framed

/-- The fields of the address phase are right. -/
theorem completionAddress_reads
    (addr : BitVec 64)
    (attr : BitVec 32)
    (out : BiSignals) :
    ReadsRequest addr attr (completionAddress addr attr out) := by
  intro target carries
  obtain ⟨_, isCommand, isWord⟩ :=
    (completionAddress_drives addr attr out).sampled carries
  rw [isCommand, isWord]
  refine ⟨rfl, fun bit inside => ?_, fun bit low high => ?_⟩
  · interval_cases bit <;> simp [splitCompletionAddress]
  · interval_cases bit <;> simp [splitCompletionAddress]

/-- The upper four bits of a byte count. -/
def upperCount (byteCount : Nat) : BitVec 4 :=
  BitVec.ofNat 4 (byteCount / 256)

theorem upperCount_getLsbD
    {bit : Nat}
    (inside : bit < 4)
    (byteCount : Nat) :
    (upperCount byteCount).getLsbD bit = byteCount.testBit (8 + bit) := by
  rw [upperCount, BitVec.getLsbD_ofNat, decide_eq_true inside, Bool.true_and,
    Nat.add_comm 8 bit, Nat.testBit_add]

/-- A mask for the byte count tests the upper four bits. -/
theorem mask_upperCount
    (byteCount : Nat)
    (mask : BitVec 4) :
    BitVec.ofNat 32 byteCount &&& mask.setWidth 32 <<< 8 ≠ 0 ↔
      upperCount byteCount &&& mask ≠ 0 := by
  have same : BitVec.ofNat 32 byteCount &&& mask.setWidth 32 <<< 8 =
      (upperCount byteCount &&& mask).setWidth 32 <<< 8 := by
    apply BitVec.eq_of_getLsbD_eq
    intro bit inside
    simp only [BitVec.getLsbD_and, BitVec.getLsbD_shiftLeft,
      BitVec.getLsbD_setWidth, BitVec.getLsbD_ofNat, inside, decide_true,
      Bool.true_and]
    by_cases low : bit < 8
    · simp [low]
    · by_cases high : bit - 8 < 4
      · rw [upperCount_getLsbD high, Nat.add_sub_cancel' (Nat.not_lt.mp low)]
        have below : bit - 8 < 32 := by omega
        simp [low, below]
      · rw [BitVec.getLsbD_of_ge mask _ (Nat.not_lt.mp high)]
        simp
  rw [same]
  generalize upperCount byteCount &&& mask = nibble
  revert nibble
  decide

/-- The last lane is tested for two other bits. -/
theorem splitCompletionUpperCount_eq_iff (byteCount : Nat) :
    splitCompletionUpperCount byteCount = upperCount byteCount ↔
      byteCount.testBit 11 =
        (byteCount.testBit 9 || byteCount.testBit 10) := by
  have masks : splitCompletionUpperCount byteCount =
      BitVec.ofBool (upperCount byteCount &&& 6 ≠ 0) ++
        BitVec.ofBool (upperCount byteCount &&& 4 ≠ 0) ++
        BitVec.ofBool (upperCount byteCount &&& 2 ≠ 0) ++
        BitVec.ofBool (upperCount byteCount &&& 1 ≠ 0) := by
    simp only [← mask_upperCount]
    rfl
  rw [masks, ← upperCount_getLsbD (show 3 < 4 by decide),
    ← upperCount_getLsbD (show 1 < 4 by decide),
    ← upperCount_getLsbD (show 2 < 4 by decide)]
  generalize upperCount byteCount = nibble
  revert nibble
  decide

theorem splitCompletionAttribute_low
    (ident byteCount : Nat) :
    (splitCompletionAttribute ident byteCount &&& 0xff).toNat =
      byteCount % 256 := by
  have same : splitCompletionAttribute ident byteCount &&& 0xff =
      (BitVec.ofNat 8 byteCount).setWidth 32 := by
    apply BitVec.eq_of_getLsbD_eq
    intro bit inside
    have small : (0xff : BitVec 32) = (BitVec.allOnes 8).setWidth 32 := rfl
    simp only [splitCompletionAttribute, small, BitVec.getLsbD_and,
      BitVec.getLsbD_or, BitVec.getLsbD_shiftLeft, BitVec.getLsbD_setWidth,
      BitVec.getLsbD_allOnes, BitVec.getLsbD_ofNat, inside, decide_true,
      Bool.true_and]
    by_cases low : bit < 8
    · have below : bit < 11 := by omega
      interval_cases bit <;> simp
    · simp [low]
  rw [same, BitVec.toNat_setWidth, BitVec.toNat_ofNat]
  omega

/-- The byte count is right if and only if these bits are. -/
theorem completionAttribute_reads_iff
    {byteCount : Nat}
    {out : BiSignals}
    (ident : Nat)
    (framed : out.frameN = .zero)
    (bounded : byteCount < 4096) :
    ReadsByteCount byteCount (completionAttribute ident byteCount out) ↔
      byteCount.testBit 11 =
        (byteCount.testBit 9 || byteCount.testBit 10) := by
  rw [← splitCompletionUpperCount_eq_iff]
  have drives := completionAttribute_drives ident byteCount framed
  have reads {target : SimbusPci Unit Unit}
      (carries : CarriesAddress (completionAttribute ident byteCount out)
        target.seen) :
      attributeByteCount target =
        (splitCompletionUpperCount byteCount).toNat * 256 + byteCount % 256 := by
    obtain ⟨_, isCommand, isWord⟩ := drives.sampled carries
    rw [attributeByteCount, isCommand, isWord, splitCompletionAttribute_low]
  have upper : (upperCount byteCount).toNat = byteCount / 256 := by
    rw [upperCount, BitVec.toNat_ofNat]
    omega
  constructor
  · intro right
    let target : SimbusPci Unit Unit :=
      { SimbusPci.init 0 (fun _ => 0) () with
        seen := completionAttribute ident byteCount out }
    have carries : CarriesAddress (completionAttribute ident byteCount out)
        target.seen :=
      CarriesAddress.refl _
    have same := (reads carries).symm.trans (right target carries)
    apply BitVec.eq_of_toNat_eq
    omega
  · intro right target carries
    rw [reads carries, right, upper]
    omega

/-! ## The whole completion -/

/-- The end of a completion: a single word is held for one more clock. -/
def EndsCompletion
    (vals : List (BitVec 32))
    (outs : List BiSignals) : Prop :=
  ∃ hold released idle, outs = hold ++ [released, idle] ∧
    hold.length = (if vals.length = 1 then 1 else 0) ∧
    (∀ out ∈ hold, ∀ val ∈ vals, DrivesWord out val) ∧
    released.frameN = .one ∧ released.irdyN = .one ∧
    idle.frameN = .z ∧ idle.irdyN = .z

/--
What the completer of a split read drives: its address phase, its attribute phase,
the clocks up to the one that ends with DEVSEL#, the words and the end.
-/
def SendsCompletion
    (callbacks : Callbacks User Handle)
    (bar : Fin 8)
    (addr : BitVec 64)
    (attr : BitVec 32)
    (byteCount : Nat)
    (device : Device User Handle)
    (cycles : List ClockCycle)
    (outs : List BiSignals) : Prop :=
  ∃ address attributes waiting data ending words vals after,
    outs = address :: attributes :: (waiting ++ (data ++ ending)) ∧
    ReadsRequest addr attr address ∧
    ReadsByteCount byteCount attributes ∧
    (∀ idx ≤ waiting.length, ∃ cycle, cycles[idx + 1]? = some cycle ∧
      (cycle.bus.devselN = .zero ↔ idx = waiting.length)) ∧
    Covers addr byteCount words ∧
    Needs callbacks bar words device vals after ∧
    List.Forall₂ DrivesWord data vals ∧
    EndsCompletion vals ending

variable {callbacks : Callbacks User Handle}
variable {bar : Fin 8}
variable {addr : BitVec 64}
variable {attr : BitVec 32}
variable {byteCount wordCount : Nat}
variable {pci final : SimbusPci User Handle}
variable {cycles : List ClockCycle}
variable {outs : List BiSignals}

theorem Needs.length
    {words : List (BitVec 64)}
    {device after : Device User Handle}
    {vals : List (BitVec 32)}
    (needs : Needs callbacks bar words device vals after) :
    vals.length = words.length := by
  induction needs with
  | none =>
      rfl
  | word _ _ inductionHypothesis =>
      exact congrArg (· + 1) inductionHypothesis

theorem length_wordsFrom (wordCount : Nat) (useAddr : BitVec 64) :
    (wordsFrom wordCount useAddr).length = wordCount := by
  induction wordCount generalizing useAddr with
  | zero =>
      rfl
  | succ wordCount inductionHypothesis =>
      exact congrArg (· + 1) (inductionHypothesis (useAddr + 4))

theorem ClockRun.of_completionRelease
    (atEdge : pci.pciClk = .one)
    (run : ClockRun (completionRelease.start pci) cycles outs () final) :
    ∃ released idle, outs = [released, idle] ∧ released.frameN = .one ∧
      released.irdyN = .one ∧ idle.frameN = .z ∧ idle.irdyN = .z := by
  rw [completionRelease] at run
  obtain ⟨cycle, cycles, outs, rfl, rfl, later⟩ := run.of_drive.of_clock atEdge
  obtain ⟨_, rfl, rfl, _⟩ :=
    later.of_drive.of_modifyState.of_posedge_last (clocked_pciClk _ cycle)
  exact ⟨_, _, rfl, rfl, rfl, rfl, rfl⟩

/-- After the words. -/
theorem ClockRun.of_completionEnd
    {vals : List (BitVec 32)}
    (atEdge : pci.pciClk = .one)
    (counted : vals.length = wordCount)
    (last : ∀ val ∈ vals.getLast?, DrivesWord pci.out val)
    (run : ClockRun ((completionEnd wordCount).start pci) cycles outs ()
      final) :
    EndsCompletion vals outs := by
  rw [completionEnd] at run
  by_cases single : wordCount = 1
  · rw [if_pos single, pciNextPosedges, pciNextPosedges, bind_assoc] at run
    obtain ⟨cycle, cycles, outs, rfl, rfl, later⟩ := run.of_clock atEdge
    rw [pure_bind] at later
    obtain ⟨released, idle, rfl, ends⟩ :=
      later.of_completionRelease (clocked_pciClk pci cycle)
    refine ⟨[pci.out], released, idle, rfl, ?_, ?_, ends⟩
    · rw [counted, if_pos single]
      rfl
    · intro out isHold val member
      obtain ⟨only, rfl⟩ := List.length_eq_one_iff.mp (counted.trans single)
      rw [List.mem_singleton] at isHold member
      subst isHold member
      exact last val rfl
  · rw [if_neg single, pciNextPosedges, pure_bind] at run
    obtain ⟨released, idle, rfl, ends⟩ := run.of_completionRelease atEdge
    refine ⟨[], released, idle, rfl, ?_, List.forall_mem_nil _, ends⟩
    rw [counted, if_neg single]
    rfl

/-- The clocks after the attribute phase. -/
theorem ClockRun.of_completionData
    {attributes : ClockCycle}
    (atEdge : pci.pciClk = .one)
    (isSeen : pci.seen = attributes.bus)
    (framed : pci.out.frameN = .zero)
    (run : ClockRun ((completionData callbacks bar addr byteCount).start pci)
      cycles outs () final) :
    ∃ waiting data ending vals after,
      outs = waiting ++ (data ++ ending) ∧
      (∀ idx ≤ waiting.length, ∃ cycle,
        (attributes :: cycles)[idx]? = some cycle ∧
          (cycle.bus.devselN = .zero ↔ idx = waiting.length)) ∧
      Needs callbacks bar (splitWords addr byteCount) pci.device vals after ∧
      List.Forall₂ DrivesWord data vals ∧
      EndsCompletion vals ending := by
  rw [completionData] at run
  obtain ⟨waiting, cyclesWords, outsWaiting, outsWords, rfl, rfl, waits,
    sameLength, _, answered⟩ := run.of_wait atEdge
  have claimed := waits.edges (fun bus => bus.devselN ≠ .zero) isSeen
  have wordsEdge := clockedAll_pciClk atEdge waiting
  have wordsFramed : (pci.clockedAll waiting).out.frameN = .zero := by
    obtain ⟨_, _, same⟩ := clockedAll_sameDrive pci waiting
    rw [same]
    exact framed
  rw [Program.start_bind] at answered
  obtain ⟨cyclesEnd, data, outsEnd, vals, after, rfl, needs, words, _, last,
    afterEdge, ends⟩ := answered.of_splitCompletionWords wordsEdge wordsFramed
  rw [clockedAll_device] at needs
  have counted := needs.length.trans (length_wordsFrom _ _)
  refine ⟨outsWaiting, data, outsEnd, vals, after.device, rfl,
    fun idx inside => ?_, needs, words,
    ends.of_completionEnd afterEdge counted last⟩
  obtain ⟨cycle, isCycle, isLast⟩ := claimed idx (sameLength ▸ inside)
  have here : (attributes :: (waiting ++ cyclesWords))[idx]? = some cycle := by
    rw [← List.cons_append]
    exact List.getElem?_append_left (List.getElem?_eq_some_iff.mp isCycle).1 ▸
      isCycle
  refine ⟨cycle, here, ?_⟩
  rw [sameLength, ← isLast]
  simp

/-- The field of the requester and the byte count of a completion. -/
theorem ClockRun.of_splitCompletion
    (atEdge : pci.pciClk = .one)
    (bounded : byteCount < 4096)
    (run : ClockRun
      ((splitCompletion callbacks bar addr attr byteCount).start pci) cycles
      outs () final) :
    ∃ address attributes waiting data ending vals after,
      outs = address :: attributes :: (waiting ++ (data ++ ending)) ∧
      ReadsRequest addr attr address ∧
      (ReadsByteCount byteCount attributes ↔
        byteCount.testBit 11 =
          (byteCount.testBit 9 || byteCount.testBit 10)) ∧
      (∀ idx ≤ waiting.length, ∃ cycle, cycles[idx + 1]? = some cycle ∧
        (cycle.bus.devselN = .zero ↔ idx = waiting.length)) ∧
      Needs callbacks bar (splitWords addr byteCount) pci.device vals after ∧
      List.Forall₂ DrivesWord data vals ∧
      EndsCompletion vals ending := by
  rw [splitCompletion] at run
  obtain ⟨first, cycles, outs, rfl, rfl, addressed⟩ :=
    run.of_drive.of_drive.of_drive.of_clock atEdge
  let addressing := pci.driving (completionAddress addr attr)
  let before := addressing.clocked first
  have framed : before.out.frameN = .zero := clocked_frameN addressing first
  obtain ⟨second, cycles, outs, rfl, rfl, attributed⟩ :=
    addressed.of_getState.of_drive.of_drive.of_clock
      (clocked_pciClk addressing first)
  let attributing := before.driving (completionAttribute before.ident byteCount)
  let after := (attributing.clocked second).driving (driveLowBe 0xf)
  have afterEdge : after.pciClk = .one := clocked_pciClk attributing second
  have isSeen : after.seen = second.bus := clocked_seen attributing second
  have afterFramed : after.out.frameN = .zero :=
    (clocked_frameN attributing second).trans framed
  have sameDevice : after.device = pci.device :=
    (clocked_device attributing second).trans (clocked_device addressing first)
  obtain ⟨waiting, data, ending, vals, device, rfl, claimed, needs, words,
    ends⟩ := attributed.of_drive.of_completionData afterEdge isSeen afterFramed
  exact ⟨addressing.out, attributing.out, waiting, data, ending, vals, device,
    rfl, completionAddress_reads addr attr pci.out,
    completionAttribute_reads_iff _ framed bounded, claimed, sameDevice ▸ needs,
    words, ends⟩

/-- The byte count is the only field that may be wrong. -/
theorem splitCompletion_iff
    (atEdge : pci.pciClk = .one)
    (some : 0 < byteCount)
    (bounded : byteCount < 4096)
    (run : ClockRun
      ((splitCompletion callbacks bar addr attr byteCount).start pci) cycles
      outs () final) :
    SendsCompletion callbacks bar addr attr byteCount pci.device cycles outs ↔
      byteCount.testBit 11 =
        (byteCount.testBit 9 || byteCount.testBit 10) := by
  obtain ⟨address, attributes, waiting, data, ending, vals, after, rfl, request,
    byteCount_iff, claimed, needs, words, ends⟩ :=
    run.of_splitCompletion atEdge bounded
  rw [← byteCount_iff]
  constructor
  · rintro ⟨_, attributes', _, _, _, _, _, _, same, _, reads, _⟩
    obtain ⟨_, same⟩ := List.cons_eq_cons.mp same
    obtain ⟨isAttributes, _⟩ := List.cons_eq_cons.mp same
    rw [isAttributes]
    exact reads
  · intro reads
    exact ⟨address, attributes, waiting, data, ending, _, vals, after, rfl,
      request, reads, claimed, splitWords_covers some bounded, needs, words,
      ends⟩

theorem splitUntilGranted_followsClock
    (callbacks : Callbacks User Handle)
    (stack : Nat) :
    FollowsClock (splitUntilGranted (pciRequestBus callbacks stack)) := by
  refine .bind (drive_followsClock _) fun _ => ?_
  refine .bind pciNextPosedge_followsClock fun _ => ?_
  refine .bind (drive_followsClock _) fun _ => ?_
  refine .bind pciNextPosedge_followsClock fun _ => ?_
  refine .bind (drive_followsClock _) fun _ => ?_
  refine .bind pciNextPosedge_followsClock fun _ => ?_
  refine .bind (drive_followsClock _) fun _ => ?_
  refine .bind (setTargetState_followsClock .idle) fun _ => ?_
  exact .bind (pciNextPosedges_followsClock 10) fun _ =>
    pciRequestBus_followsClock callbacks stack

/-- A split read is the split response and then the completion. -/
theorem ClockRun.of_doTargetMemoryReadSplit
    {stack : Nat}
    {granted : SimbusPci User Handle}
    {cyclesBefore : List ClockCycle}
    {outsBefore : List BiSignals}
    (atEdge : pci.pciClk = .one)
    (before : ClockRun
      ((splitUntilGranted (pciRequestBus callbacks stack)).start pci)
      cyclesBefore outsBefore () granted)
    (run : ClockRun
      ((doTargetMemoryReadSplit callbacks (pciRequestBus callbacks stack) bar
        addr attr byteCount).start pci)
      (cyclesBefore ++ cycles) outs () final) :
    granted.pciClk = .one ∧
      ClockRun ((splitCompletion callbacks bar addr attr byteCount).start
        granted) cycles (outs.drop cyclesBefore.length) () final := by
  have grantedEdge : granted.pciClk = .one :=
    before.atEdge (splitUntilGranted_followsClock callbacks stack) atEdge
  rw [doTargetMemoryReadSplit_eq, Program.start_bind] at run
  obtain ⟨outsLater, rfl, completes⟩ := before.later run
  rw [← before.length, List.drop_left]
  exact ⟨grantedEdge, completes⟩

/-! ## A target that is always ready -/

section Ready

variable {handle : Handle}
variable (cycle : ClockCycle)

/-- Callbacks that do not change the device. -/
def Unchanging (callbacks : Callbacks User Handle) : Prop :=
  ∀ handle addr ben device,
    (callbacks.need32 handle addr ben device).2 = device

theorem pciNextPosedges_endsAfter
    (atEdge : pci.pciClk = .one)
    (count : Nat) :
    EndsAfter (pciNextPosedges count) pci (List.replicate count cycle)
      fun _ final => final = pci.clockedAll (List.replicate count cycle) := by
  induction count generalizing pci with
  | zero =>
      exact .pure rfl
  | succ count inductionHypothesis =>
      exact .clock cycle atEdge (inductionHypothesis (clocked_pciClk pci cycle))

theorem splitCompletionWords_endsAfter
    (unchanging : Unchanging callbacks)
    (isHandle : (pci.device.memTarget bar).need32 = some handle)
    (atEdge : pci.pciClk = .one)
    (wordCount : Nat)
    (useAddr : BitVec 64) :
    EndsAfter (splitCompletionWords callbacks bar wordCount useAddr) pci
      (List.replicate wordCount cycle) fun _ final => final.pciClk = .one := by
  induction wordCount generalizing pci useAddr with
  | zero =>
      exact .pure atEdge
  | succ wordCount inductionHypothesis =>
      let sending := sendingWord callbacks handle useAddr pci
      have sameDevice : (sending.clocked cycle).device = pci.device :=
        (clocked_device _ _).trans (unchanging handle useAddr 0 pci.device)
      obtain ⟨outs, _, final, run, finalEdge⟩ := inductionHypothesis
        (sameDevice ▸ isHandle) (clocked_pciClk sending cycle) (useAddr + 4)
      refine ⟨sending.out :: outs, (), final, ?_, finalEdge⟩
      rw [splitCompletionWords_start isHandle]
      exact run.posedge_bind (show sending.pciClk = .one from atEdge)

theorem completionEnd_endsAfter
    (atEdge : pci.pciClk = .one)
    (wordCount : Nat) :
    EndsAfter (completionEnd wordCount) pci
      (List.replicate (if wordCount = 1 then 1 else 0) cycle ++ [cycle, cycle])
      fun _ _ => True := by
  refine .bind (pciNextPosedges_endsAfter cycle atEdge _) fun _ held same =>
    .drive (.clock cycle ?_ (.drive (.modify (.lastClock cycle ?_ trivial))))
  · rw [same]
    exact clockedAll_pciClk atEdge _
  · exact clocked_pciClk _ cycle

/-- The clocks of the words and the end of a completion. -/
def completionClocks (wordCount : Nat) : List ClockCycle :=
  List.replicate wordCount cycle ++
    (List.replicate (if wordCount = 1 then 1 else 0) cycle ++ [cycle, cycle])

theorem completionData_endsAfter
    {device : Device User Handle}
    (claims : pci.seen.devselN = .zero)
    (unchanging : Unchanging callbacks)
    (sameDevice : pci.device = device)
    (isHandle : (device.memTarget bar).need32 = some handle)
    (atEdge : pci.pciClk = .one) :
    EndsAfter (completionData callbacks bar addr byteCount) pci
      (completionClocks cycle ((addr.toNat % 4 + byteCount + 3) / 4))
      fun _ _ => True := by
  have waits : WaitsWhile (fun pci : SimbusPci User Handle =>
      decide (pci.seen.devselN ≠ .zero)) pci [] :=
    .done (by rw [claims]; rfl)
  have words := splitCompletionWords_endsAfter cycle unchanging
    (sameDevice ▸ isHandle) atEdge ((addr.toNat % 4 + byteCount + 3) / 4)
    (addr &&& ~~~3)
  have ends : EndsAfter (completionData callbacks bar addr byteCount) pci
      ([] ++ completionClocks cycle ((addr.toNat % 4 + byteCount + 3) / 4))
      fun _ _ => True :=
    .wait waits atEdge (.bind words fun _ sent sentEdge =>
      completionEnd_endsAfter cycle sentEdge _)
  exact ends

/-- A target that claims the completion gets it to its end. -/
theorem splitCompletion_endsAfter
    (claims : cycle.bus.devselN = .zero)
    (unchanging : Unchanging callbacks)
    (isHandle : (pci.device.memTarget bar).need32 = some handle)
    (atEdge : pci.pciClk = .one) :
    ∃ cycles, EndsAfter (splitCompletion callbacks bar addr attr byteCount) pci
      cycles fun _ _ => True := by
  refine ⟨cycle :: cycle ::
    completionClocks cycle ((addr.toNat % 4 + byteCount + 3) / 4), ?_⟩
  refine .drive (.drive (.drive (.clock cycle atEdge ?_)))
  refine .getState (.drive (.drive (.clock cycle (clocked_pciClk _ _) ?_)))
  refine .drive (completionData_endsAfter cycle ?_ unchanging ?_ isHandle
    (clocked_pciClk _ cycle))
  · exact (congrArg BiSignals.devselN (clocked_seen _ cycle)).trans claims
  · exact (clocked_device _ cycle).trans (clocked_device _ cycle)

/-- The bus is granted at once. -/
theorem splitUntilGranted_endsAfter
    (grants : cycle.edge.gntN = .zero)
    (noFrame : cycle.bus.frameN ≠ .zero)
    (noIrdy : cycle.bus.irdyN ≠ .zero)
    (atEdge : pci.pciClk = .one)
    (stack : Nat) :
    ∃ cycles,
      EndsAfter (splitUntilGranted (pciRequestBus callbacks (stack + 1))) pci
        cycles fun _ granted => granted.device = pci.device := by
  refine ⟨cycle :: cycle :: cycle :: (List.replicate 10 cycle ++ []), ?_⟩
  refine .drive (.clock cycle atEdge ?_)
  refine .drive (.clock cycle (clocked_pciClk _ _) ?_)
  refine .drive (.clock cycle (clocked_pciClk _ _) (.drive (.modify ?_)))
  refine .bind (pciNextPosedges_endsAfter cycle ?_ 10) ?_
  · exact clocked_pciClk _ cycle
  rintro _ delayed rfl
  have last (before : SimbusPci User Handle) :
      before.clockedAll (List.replicate 10 cycle) =
        (before.clockedAll (List.replicate 9 cycle)).clocked cycle := by
    rw [List.replicate_succ', clockedAll_append]
    rfl
  rw [last, pciRequestBus]
  have ready (before : SimbusPci User Handle) :
      ¬ busNotReady (before.clocked cycle) := by
    simp [busNotReady, grants, noFrame, noIrdy]
  refine ⟨[], (), _, .done (requestBusWith_granted (ready _) _), ?_⟩
  refine (clocked_device _ cycle).trans ((clockedAll_device _ _).trans ?_)
  exact (clocked_device _ cycle).trans
    ((clocked_device _ cycle).trans (clocked_device _ cycle))

end Ready

/-! ## Two completions -/

/-- A granted clock of a PCI-X bus on which DEVSEL# is driven. -/
def claimedClock : ClockCycle :=
  let signals (pciClk : Logic4) : SendSignals :=
    { pciClk := pciClk
      pcixcap := .one
      gntN := .zero
      idsel := .z
      resetN := none
      intN := none
      bi := { BiSignals.released with devselN := .zero } }
  { high := []
    low := [signals .zero]
    edge := signals .one
    isHigh := noSignals_high
    isLow := List.forall_mem_singleton.mpr rfl
    falls := List.cons_ne_nil _ _
    rises := rfl }

/-- A completer with a region of zeros. -/
def splitTarget : SimbusPci Unit Unit :=
  let pci := SimbusPci.init 3 (fun _ => 0) ()
  { pci with
    pciClk := .one
    device :=
      { pci.device with
        memTarget := fun _ =>
          { SimbusTranslation.unused with need32 := some () } } }

/-- The region is split-read, and the completion comes to its end. -/
theorem splitTarget_runs (byteCount : Nat) :
    ∃ cyclesBefore outsBefore granted cycles outs final,
      ClockRun
        ((splitUntilGranted (pciRequestBus noCallbacks 1)).start splitTarget)
        cyclesBefore outsBefore () granted ∧
      ClockRun
        ((doTargetMemoryReadSplit noCallbacks (pciRequestBus noCallbacks 1) 0 0
          0 byteCount).start splitTarget)
        (cyclesBefore ++ cycles) outs () final := by
  have unchanging : Unchanging noCallbacks := fun _ _ _ _ => rfl
  have splits : ∃ cycles,
      EndsAfter (splitUntilGranted (pciRequestBus noCallbacks 1)) splitTarget
        cycles fun _ granted => granted.device = splitTarget.device :=
    splitUntilGranted_endsAfter claimedClock rfl (by decide) (by decide) rfl 0
  obtain ⟨cyclesBefore, outsBefore, _, granted, before, sameDevice⟩ := splits
  have grantedEdge : granted.pciClk = .one :=
    before.atEdge (splitUntilGranted_followsClock noCallbacks 1) rfl
  have isHandle : (granted.device.memTarget 0).need32 = some () := by
    rw [sameDevice]
    rfl
  have ends : ∃ cycles,
      EndsAfter (splitCompletion noCallbacks 0 0 0 byteCount) granted cycles
        fun _ _ => True :=
    splitCompletion_endsAfter claimedClock rfl unchanging isHandle grantedEdge
  obtain ⟨cycles, outs, _, final, completes, _⟩ := ends
  refine ⟨cyclesBefore, outsBefore, granted, cycles, outsBefore ++ outs, final,
    before, ?_⟩
  rw [doTargetMemoryReadSplit_eq, Program.start_bind]
  exact before.bind completes

/--
The completer of a split read sends all fields and words as it should if and only
if the highest bit of the byte count is set exactly if one of the next two is.
-/
theorem doTargetMemoryReadSplit_iff
    {callbacks : Callbacks User Handle}
    {bar : Fin 8}
    {addr : BitVec 64}
    {attr : BitVec 32}
    {byteCount stack : Nat}
    {pci granted final : SimbusPci User Handle}
    {cyclesBefore cycles : List ClockCycle}
    {outsBefore outs : List BiSignals}
    (atEdge : pci.pciClk = .one)
    (some : 0 < byteCount)
    (bounded : byteCount < 4096)
    (before : ClockRun
      ((splitUntilGranted (pciRequestBus callbacks stack)).start pci)
      cyclesBefore outsBefore () granted)
    (run : ClockRun
      ((doTargetMemoryReadSplit callbacks (pciRequestBus callbacks stack) bar
        addr attr byteCount).start pci)
      (cyclesBefore ++ cycles) outs () final) :
    SendsCompletion callbacks bar addr attr byteCount granted.device cycles
      (outs.drop cyclesBefore.length) ↔
        byteCount.testBit 11 =
          (byteCount.testBit 9 || byteCount.testBit 10) := by
  obtain ⟨grantedEdge, completes⟩ :=
    ClockRun.of_doTargetMemoryReadSplit atEdge before run
  exact splitCompletion_iff grantedEdge some bounded completes

/-- A word is completed as it should. -/
theorem splitTarget_word :
    ∃ cyclesBefore outsBefore granted cycles outs final,
      ClockRun
        ((splitUntilGranted (pciRequestBus noCallbacks 1)).start splitTarget)
        cyclesBefore outsBefore () granted ∧
      ClockRun
        ((doTargetMemoryReadSplit noCallbacks (pciRequestBus noCallbacks 1) 0 0
          0 4).start splitTarget)
        (cyclesBefore ++ cycles) outs () final ∧
      SendsCompletion noCallbacks 0 0 0 4 granted.device cycles
        (outs.drop cyclesBefore.length) := by
  obtain ⟨cyclesBefore, outsBefore, granted, cycles, outs, final, before, run⟩ :=
    splitTarget_runs 4
  exact ⟨cyclesBefore, outsBefore, granted, cycles, outs, final, before, run,
    (doTargetMemoryReadSplit_iff rfl (by decide) (by decide) before run).mpr
      (by decide)⟩

/-- Of 512 bytes the completer announces 2560. -/
theorem splitTarget_upperCount :
    ∃ cyclesBefore outsBefore granted cycles outs final,
      ClockRun
        ((splitUntilGranted (pciRequestBus noCallbacks 1)).start splitTarget)
        cyclesBefore outsBefore () granted ∧
      ClockRun
        ((doTargetMemoryReadSplit noCallbacks (pciRequestBus noCallbacks 1) 0 0
          0 512).start splitTarget)
        (cyclesBefore ++ cycles) outs () final ∧
      ¬ SendsCompletion noCallbacks 0 0 0 512 granted.device cycles
        (outs.drop cyclesBefore.length) := by
  obtain ⟨cyclesBefore, outsBefore, granted, cycles, outs, final, before, run⟩ :=
    splitTarget_runs 512
  refine ⟨cyclesBefore, outsBefore, granted, cycles, outs, final, before, run,
    fun sends => ?_⟩
  obtain ⟨grantedEdge, completes⟩ :=
    ClockRun.of_doTargetMemoryReadSplit rfl before run
  have bits := (splitCompletion_iff grantedEdge (by decide) (by decide)
    completes).mp sends
  exact absurd bits (by decide)

end

end Simbus.Pci
