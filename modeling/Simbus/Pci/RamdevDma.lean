import Simbus.Pci.RamdevStores
import Simbus.Clocked.Returns

/-!
# The transfers of the memory device

A write to the command register ends the wait of the main program, which then
transfers words between the bus and the memory until the count is zero.  The
count and the offset are reduced modulo the last multiple of 4 instead of
being rounded down to one, and the low half of the address is advanced alone.
-/

namespace Simbus.Pci

open Clocked

/-! ## The registers -/

/-- `0x1000`: command and status. -/
def commandWord : Fin 0x800 := ⟨0x1000 / 4, by decide⟩

/-- `0x1004`: the transfer count in bytes. -/
def countWord : Fin 0x800 := ⟨0x1004 / 4, by decide⟩

/-- `0x1008`: the low half of the external address. -/
def addrLowWord : Fin 0x800 := ⟨0x1008 / 4, by decide⟩

/-- `0x100c`: the high half of the external address. -/
def addrHighWord : Fin 0x800 := ⟨0x100c / 4, by decide⟩

/-- `0x1010`: the memory offset in bytes. -/
def offsetWord : Fin 0x800 := ⟨0x1010 / 4, by decide⟩

/-- The word of the memory at an offset, unless it is past the end. -/
def memoryPlace (off : Nat) : Option (Fin 0x4000) :=
  if inside : off < 0x10000 then some ⟨off / 4, by omega⟩ else none

/-- One word of a transfer. -/
structure Transfer where
  isWrite : Bool
  addr : BitVec 64
  place : Option (Fin 0x4000)
  val : BitVec 32
  deriving DecidableEq

/-- The two ends of a transfer. -/
def Transfer.ends (transfer : Transfer) : BitVec 64 × Option (Fin 0x4000) :=
  (transfer.addr, transfer.place)

/-- The device and the words it has transferred so far. -/
structure DmaState where
  ram : RamDev
  transfers : List Transfer

/--
A function of the device that uses the bus.  Each operation is answered by one
word, which only a read makes use of.
-/
abbrev DmaCall (Value : Type) : Type :=
  Program DmaState (BitVec 32) Value

/-- `simbus_pci_read32`, or `simbus_pci_write32` where the word is unused. -/
def busOperation : DmaCall (BitVec 32) :=
  Program.exchange fun val => pure val

/-- Change a register. -/
def RamDev.setRegister
    (word : Fin 0x800)
    (val : BitVec 32)
    (ram : RamDev) : RamDev :=
  { ram with bar2Mem := Function.update ram.bar2Mem word val }

/-- The external address. -/
def RamDev.externalAddr (ram : RamDev) : BitVec 64 :=
  (ram.bar2Mem addrHighWord).setWidth 64 <<< 32 |||
    (ram.bar2Mem addrLowWord).setWidth 64

/-- `bar2_mem[word] += val`. -/
def RamDev.addToRegister
    (word : Fin 0x800)
    (val : BitVec 32)
    (ram : RamDev) : RamDev :=
  ram.setRegister word (ram.bar2Mem word + val)

def addToRegister (word : Fin 0x800) (val : BitVec 32) : DmaCall Unit :=
  Program.modifyState fun state =>
    { state with ram := state.ram.addToRegister word val }

/-- The word of the memory that is written to the bus. -/
def RamDev.wordAt (ram : RamDev) : Option (Fin 0x4000) → BitVec 32
  | some word => ram.memorySpace word
  | none => 0xffffffff

/-- Take a word from the bus, unless it is for an offset past the end. -/
def RamDev.store
    (ram : RamDev)
    (val : BitVec 32) : Option (Fin 0x4000) → RamDev
  | some word =>
      { ram with memorySpace := Function.update ram.memorySpace word val }
  | none => ram

/-- The body of the loop: one word. -/
def transferWord : DmaCall Unit := do
  let { ram, .. } ← Program.getState
  let addr := ram.externalAddr
  let off := ram.bar2Mem offsetWord
  let place := memoryPlace off.toNat
  addToRegister offsetWord 4
  addToRegister addrLowWord 4
  addToRegister countWord (-4)
  let { ram, .. } ← Program.getState
  if ram.bar2Mem commandWord &&& 0x10 ≠ 0 then
    let val := ram.wordAt place
    let _ ← busOperation
    Program.modifyState fun state =>
      { state with transfers := state.transfers ++ [⟨true, addr, place, val⟩] }
  else
    let val ← busOperation
    Program.modifyState fun state =>
      { ram := state.ram.store val place
        transfers := state.transfers ++ [⟨false, addr, place, val⟩] }

/-- The transfer count is not zero. -/
def wordsLeft (state : DmaState) : Bool :=
  (0 : BitVec 32) < state.ram.bar2Mem countWord

/-- Clear the GO bit. -/
def DmaState.clearGo (state : DmaState) : DmaState :=
  { state with
    ram :=
      state.ram.setRegister commandWord
        (state.ram.bar2Mem commandWord &&& ~~~0x01) }

/-- `do_bus_master_operations`. -/
def doBusMasterOperations : DmaCall Unit := do
  let { ram, .. } ← Program.getState
  if ram.bar2Mem commandWord &&& 0x01 ≠ 0 then
    Program.whileDo wordsLeft transferWord
    Program.modifyState DmaState.clearGo

/-! ## One word -/

/-- The registers after the steps of the three counters. -/
def RamDev.advanced (ram : RamDev) : RamDev :=
  ((ram.addToRegister offsetWord 4).addToRegister addrLowWord 4).addToRegister
    countWord (-4)

/-- What a word moves between the bus and the memory. -/
def DmaState.moved
    (isWrite : Bool)
    (addr : BitVec 64)
    (place : Option (Fin 0x4000))
    (answer : BitVec 32)
    (state : DmaState) : DmaState :=
  if isWrite then
    { state with
      transfers :=
        state.transfers ++ [⟨true, addr, place, state.ram.wordAt place⟩] }
  else
    { ram := state.ram.store answer place
      transfers := state.transfers ++ [⟨false, addr, place, answer⟩] }

/-- The direction of a command. -/
def isWriteCommand (command : BitVec 32) : Bool :=
  command &&& 0x10 ≠ 0

/-- The state after one word. -/
def DmaState.afterWord (state : DmaState) (answer : BitVec 32) : DmaState :=
  { state with ram := state.ram.advanced }.moved
    (isWriteCommand (state.ram.bar2Mem commandWord))
    state.ram.externalAddr
    (memoryPlace (state.ram.bar2Mem offsetWord).toNat)
    answer

@[simp] theorem addToRegister_same
    (word : Fin 0x800)
    (val : BitVec 32)
    (ram : RamDev) :
    (ram.addToRegister word val).bar2Mem word = ram.bar2Mem word + val :=
  Function.update_self _ _ _

theorem addToRegister_other
    {word other : Fin 0x800}
    (isOther : other ≠ word)
    (val : BitVec 32)
    (ram : RamDev) :
    (ram.addToRegister word val).bar2Mem other = ram.bar2Mem other :=
  Function.update_of_ne isOther _ _

/-- The registers after one word. -/
theorem advanced_registers (ram : RamDev) :
    ram.advanced.bar2Mem commandWord = ram.bar2Mem commandWord ∧
      ram.advanced.bar2Mem countWord = ram.bar2Mem countWord + -4 ∧
      ram.advanced.bar2Mem addrLowWord = ram.bar2Mem addrLowWord + 4 ∧
      ram.advanced.bar2Mem addrHighWord = ram.bar2Mem addrHighWord ∧
      ram.advanced.bar2Mem offsetWord = ram.bar2Mem offsetWord + 4 := by
  have distinct : commandWord ≠ offsetWord ∧ commandWord ≠ addrLowWord ∧
      commandWord ≠ countWord ∧ countWord ≠ offsetWord ∧
      countWord ≠ addrLowWord ∧ addrLowWord ≠ offsetWord ∧
      addrLowWord ≠ countWord ∧ addrHighWord ≠ offsetWord ∧
      addrHighWord ≠ addrLowWord ∧ addrHighWord ≠ countWord ∧
      offsetWord ≠ addrLowWord ∧ offsetWord ≠ countWord := by
    decide
  simp [RamDev.advanced, addToRegister_other, distinct]

@[simp] theorem store_bar2Mem
    (ram : RamDev)
    (val : BitVec 32)
    (place : Option (Fin 0x4000)) :
    (ram.store val place).bar2Mem = ram.bar2Mem := by
  cases place <;> rfl

@[simp] theorem moved_bar2Mem
    (isWrite : Bool)
    (addr : BitVec 64)
    (place : Option (Fin 0x4000))
    (answer : BitVec 32)
    (state : DmaState) :
    (state.moved isWrite addr place answer).ram.bar2Mem =
      state.ram.bar2Mem := by
  rw [DmaState.moved]
  split
  · rfl
  · exact store_bar2Mem _ _ _

/-- One word is one operation on the bus. -/
theorem start_transferWord (state : DmaState) :
    transferWord.start state =
      .await { state with ram := state.ram.advanced } fun answer =>
        .finish () (state.afterWord answer) := by
  have sameCommand := (advanced_registers state.ram).1
  rw [RamDev.advanced] at sameCommand
  simp only [transferWord, addToRegister, busOperation,
    Program.start_bind, Program.start_getState, Program.start_modifyState,
    Behavior.finish_bind, Program.start_ite, sameCommand]
  split
  case isTrue isWrite =>
    have direction :
        isWriteCommand (state.ram.bar2Mem commandWord) = true :=
      decide_eq_true isWrite
    simp only [Program.start_exchange, Program.start_modifyState,
      Behavior.await_bind, Program.start_pure,
      Behavior.finish_bind, DmaState.afterWord, DmaState.moved, direction,
      if_true]
    rfl
  case isFalse isRead =>
    have direction :
        isWriteCommand (state.ram.bar2Mem commandWord) = false :=
      decide_eq_false isRead
    simp only [Program.start_exchange, Program.start_modifyState,
      Behavior.await_bind, Program.start_pure,
      Behavior.finish_bind, DmaState.afterWord, DmaState.moved, direction,
      Bool.false_eq_true, if_false]
    rfl

/-! ## The loop -/

/-- The loop over the words. -/
def transferWords : DmaCall Unit :=
  Program.whileDo wordsLeft transferWord

/-- The state after the words that some answers belong to. -/
def DmaState.afterWords
    (state : DmaState)
    (answers : List (BitVec 32)) : DmaState :=
  answers.foldl DmaState.afterWord state

theorem afterWord_count (state : DmaState) (answer : BitVec 32) :
    (state.afterWord answer).ram.bar2Mem countWord =
      state.ram.bar2Mem countWord + -4 := by
  rw [DmaState.afterWord, moved_bar2Mem]
  exact (advanced_registers state.ram).2.1

theorem start_transferWords_done
    {state : DmaState}
    (noneLeft : state.ram.bar2Mem countWord = 0) :
    transferWords.start state = .finish () state := by
  apply Program.start_whileDo_false
  simp [wordsLeft, noneLeft]

theorem start_transferWords_more
    {state : DmaState}
    (someLeft : state.ram.bar2Mem countWord ≠ 0) :
    transferWords.start state =
      .await { state with ram := state.ram.advanced } fun answer =>
        transferWords.start (state.afterWord answer) := by
  have goesOn : wordsLeft state = true :=
    decide_eq_true (BitVec.lt_def.mpr (BitVec.toNat_pos_of_ne_zero someLeft))
  rw [transferWords, Program.start_whileDo_true goesOn,
    start_transferWord, Behavior.await_bind]
  · rfl
  · intro final rest done
    rw [start_transferWord] at done
    cases done

/-- A count that is a multiple of 4 comes to its end. -/
theorem transferWords_returns
    {answers : List (BitVec 32)}
    {state : DmaState}
    (isCount : (state.ram.bar2Mem countWord).toNat = 4 * answers.length) :
    ∃ exchanges, Returns (transferWords.start state) answers exchanges ()
      (state.afterWords answers) := by
  induction answers generalizing state with
  | nil =>
      rw [start_transferWords_done (BitVec.eq_of_toNat_eq isCount)]
      exact ⟨[], .finish () state⟩
  | cons answer answers inductionHypothesis =>
      rw [List.length_cons] at isCount
      have someLeft : state.ram.bar2Mem countWord ≠ 0 := by
        intro noneLeft
        rw [noneLeft] at isCount
        simp at isCount
      have fewer :
          ((state.afterWord answer).ram.bar2Mem countWord).toNat =
            4 * answers.length := by
        rw [afterWord_count, BitVec.toNat_add]
        change ((state.ram.bar2Mem countWord).toNat + 4294967292) % 2 ^ 32 = _
        have bounded := (state.ram.bar2Mem countWord).isLt
        omega
      obtain ⟨exchanges, returns⟩ := inductionHypothesis fewer
      rw [start_transferWords_more someLeft]
      exact ⟨_, .await returns⟩

/-- Any other count never does. -/
theorem transferWords_never_returns
    {answers : List (BitVec 32)}
    {exchanges : List (DmaState × BitVec 32)}
    {state final : DmaState}
    (notMultiple : (state.ram.bar2Mem countWord).toNat % 4 ≠ 0) :
    ¬Returns (transferWords.start state) answers exchanges () final := by
  have someLeft : state.ram.bar2Mem countWord ≠ 0 := by
    intro noneLeft
    rw [noneLeft] at notMultiple
    exact notMultiple rfl
  intro returns
  have ran := returns.run
  clear returns
  induction answers generalizing state with
  | nil =>
      rw [start_transferWords_more someLeft] at ran
      cases ran
  | cons answer answers inductionHypothesis =>
      rw [start_transferWords_more someLeft] at ran
      have stillNot :
          ((state.afterWord answer).ram.bar2Mem countWord).toNat % 4 ≠ 0 := by
        rw [afterWord_count, BitVec.toNat_add]
        change ((state.ram.bar2Mem countWord).toNat + 4294967292) % 2 ^ 32 %
          4 ≠ 0
        omega
      apply inductionHypothesis stillNot _ ran
      intro noneLeft
      rw [noneLeft] at stillNot
      exact stillNot rfl

/-! ## What is programmed -/

/-- The words written to the registers; the command has the GO bit. -/
structure DmaSetup where
  count : BitVec 32
  offset : BitVec 32
  addrLow : BitVec 32
  addrHigh : BitVec 32
  command : BitVec 32
  go : command &&& 0x01 ≠ 0

/-- The registers of a setup with what is written to them. -/
def DmaSetup.registers (setup : DmaSetup) : List (Fin 0x800 × BitVec 32) :=
  [(countWord, setup.count), (offsetWord, setup.offset),
    (addrLowWord, setup.addrLow), (addrHighWord, setup.addrHigh),
    (commandWord, setup.command)]

/-- Writes of whole words to the registers. -/
def programRegisters
    (writes : List (BitVec 64 × BitVec 32))
    (device : RamDevice) : RamDevice :=
  writes.foldl (fun device write => bar2Recv32 write.1 write.2 0 device) device

/-- Some writes program a setup, in any order. -/
def DmaSetup.ProgrammedBy
    (setup : DmaSetup)
    (writes : List (BitVec 64 × BitVec 32)) : Prop :=
  (writes.map fun write => (bar2Word write.1, write.2)).Perm setup.registers

theorem mergeBytes_whole (val old : BitVec 32) :
    mergeBytes val 0 old = val := by
  have wholeWord : beMask 0 = BitVec.allOnes 32 := by decide
  rw [mergeBytes, wholeWord]
  simp [and_allLines]

/-- A register that no write addresses keeps its word. -/
theorem programRegisters_other
    {writes : List (BitVec 64 × BitVec 32)}
    {word : Fin 0x800}
    (isOther : ∀ write ∈ writes, bar2Word write.1 ≠ word)
    (device : RamDevice) :
    (programRegisters writes device).user.bar2Mem word =
      device.user.bar2Mem word := by
  induction writes generalizing device with
  | nil => rfl
  | cons write writes inductionHypothesis =>
      rw [programRegisters, List.foldl_cons, ← programRegisters,
        inductionHypothesis
          (fun other member => isOther other (List.mem_cons_of_mem _ member))]
      exact Function.update_of_ne
        (isOther write List.mem_cons_self).symm _ _

/-- A register that one write addresses keeps what that leaves. -/
theorem programRegisters_word
    {writes : List (BitVec 64 × BitVec 32)}
    {word : Fin 0x800}
    {val : BitVec 32}
    (distinct : (writes.map fun write => bar2Word write.1).Nodup)
    (written : (word, val) ∈ writes.map fun write =>
      (bar2Word write.1, write.2))
    (device : RamDevice) :
    (programRegisters writes device).user.bar2Mem word =
      bar2Masked word val := by
  induction writes generalizing device with
  | nil => cases written
  | cons write writes inductionHypothesis =>
      rw [List.map_cons, List.nodup_cons] at distinct
      rw [programRegisters, List.foldl_cons, ← programRegisters]
      rw [List.map_cons, List.mem_cons] at written
      rcases written with isHead | inRest
      · obtain ⟨rfl, rfl⟩ := Prod.mk.inj isHead
        rw [programRegisters_other]
        · simp only [bar2Recv32, Function.update_self, mergeBytes_whole]
        · intro other member same
          exact distinct.1 (List.mem_map.mpr ⟨other, member, same⟩)
      · exact inductionHypothesis distinct.2 inRest _

/-- The registers hold what was programmed, with the reductions. -/
structure DmaSetup.InRegisters (setup : DmaSetup) (ram : RamDev) : Prop where
  count : ram.bar2Mem countWord = setup.count % 0xfffffffc
  offset : ram.bar2Mem offsetWord = setup.offset % 0xfffffffc
  addrLow : ram.bar2Mem addrLowWord = setup.addrLow
  addrHigh : ram.bar2Mem addrHighWord = setup.addrHigh
  command : ram.bar2Mem commandWord = setup.command

theorem DmaSetup.ProgrammedBy.inRegisters
    {setup : DmaSetup}
    {writes : List (BitVec 64 × BitVec 32)}
    (programmed : setup.ProgrammedBy writes)
    (device : RamDevice) :
    setup.InRegisters (programRegisters writes device).user := by
  have distinct : (writes.map fun write => bar2Word write.1).Nodup := by
    have words := (programmed.map Prod.fst).nodup_iff
    rw [List.map_map] at words
    apply words.mpr
    change [countWord, offsetWord, addrLowWord, addrHighWord,
      commandWord].Nodup
    decide
  have holds : ∀ {word val}, (word, val) ∈ setup.registers →
      (programRegisters writes device).user.bar2Mem word =
        bar2Masked word val :=
    fun member => programRegisters_word distinct
      (programmed.mem_iff.mpr member) device
  constructor
  · exact holds (by simp [DmaSetup.registers])
  · exact holds (by simp [DmaSetup.registers])
  · exact holds (by simp [DmaSetup.registers])
  · exact holds (by simp [DmaSetup.registers])
  · exact holds (by simp [DmaSetup.registers])

/-! ## What should be transferred -/

namespace DmaSetup

/-- The external address of a word. -/
def wordAddr (setup : DmaSetup) (idx : Nat) : BitVec 64 :=
  (setup.addrHigh.setWidth 64 <<< 32 ||| setup.addrLow.setWidth 64) +
    BitVec.ofNat 64 (4 * idx)

/-- The place of a word in the memory; the offset is a multiple of 4. -/
def wordPlace (setup : DmaSetup) (idx : Nat) : Option (Fin 0x4000) :=
  memoryPlace (setup.offset.toNat / 4 * 4 + 4 * idx)

/-- The words from one on, with their answers. -/
def transferred
    (setup : DmaSetup) :
    Nat → List (BitVec 32) → DmaState → DmaState
  | _, [], state => state
  | idx, answer :: answers, state =>
      setup.transferred (idx + 1) answers
        (state.moved (isWriteCommand setup.command) (setup.wordAddr idx)
          (setup.wordPlace idx) answer)

/--
The operations terminate with the last word of the count.  They have made the
programmed transfers, and the GO bit is clear.
-/
def TransfersAll (setup : DmaSetup) (ram : RamDev) : Prop :=
  ∀ answers : List (BitVec 32), answers.length = setup.count.toNat / 4 →
    ∃ exchanges final,
      Returns (doBusMasterOperations.start ⟨ram, []⟩) answers exchanges ()
        final ∧
      final.transfers = (setup.transferred 0 answers ⟨ram, []⟩).transfers ∧
      final.ram.memorySpace =
        (setup.transferred 0 answers ⟨ram, []⟩).ram.memorySpace ∧
      final.ram.bar2Mem commandWord &&& 0x01 = 0

/--
The count is a multiple of 4 below the last one.  If it is not zero, the low
half of the address and the offset do not overflow, and the offset is not the
last multiple of 4.
-/
structure InBounds (setup : DmaSetup) : Prop where
  multiple : setup.count.toNat % 4 = 0
  below : setup.count ≠ 0xfffffffc
  addr : setup.count ≠ 0 →
    setup.addrLow.toNat + setup.count.toNat ≤ 2 ^ 32 + 3
  offset : setup.count ≠ 0 →
    setup.offset.toNat < 0xfffffffc ∧
      setup.offset.toNat + setup.count.toNat ≤ 2 ^ 32 + 3

/-- The registers before some word. -/
structure AtWord
    (setup : DmaSetup)
    (idx : Nat)
    (ram : RamDev) : Prop where
  offset : ram.bar2Mem offsetWord =
    setup.offset % 0xfffffffc + BitVec.ofNat 32 (4 * idx)
  addrLow : ram.bar2Mem addrLowWord =
    setup.addrLow + BitVec.ofNat 32 (4 * idx)
  addrHigh : ram.bar2Mem addrHighWord = setup.addrHigh
  command : ram.bar2Mem commandWord = setup.command

theorem InRegisters.atWord
    {setup : DmaSetup}
    {ram : RamDev}
    (inRegisters : setup.InRegisters ram) :
    setup.AtWord 0 ram where
  offset := by
    rw [inRegisters.offset]
    simp
  addrLow := by
    rw [inRegisters.addrLow]
    simp
  addrHigh := inRegisters.addrHigh
  command := inRegisters.command

/-- The address that the registers give for a word. -/
def registerAddr (setup : DmaSetup) (idx : Nat) : BitVec 64 :=
  setup.addrHigh.setWidth 64 <<< 32 |||
    (setup.addrLow + BitVec.ofNat 32 (4 * idx)).setWidth 64

/-- The place that the registers give for a word. -/
def registerPlace (setup : DmaSetup) (idx : Nat) : Option (Fin 0x4000) :=
  memoryPlace
    (setup.offset % 0xfffffffc + BitVec.ofNat 32 (4 * idx)).toNat

variable {setup : DmaSetup}
variable {idx : Nat}
variable {state : DmaState}

theorem AtWord.afterWord_eq
    (atWord : setup.AtWord idx state.ram)
    (answer : BitVec 32) :
    state.afterWord answer =
      { state with ram := state.ram.advanced }.moved
        (isWriteCommand setup.command) (setup.registerAddr idx)
        (setup.registerPlace idx) answer := by
  rw [DmaState.afterWord, RamDev.externalAddr, atWord.command,
    atWord.addrHigh, atWord.addrLow, atWord.offset]
  rfl

theorem add_four (word : BitVec 32) (idx : Nat) :
    word + BitVec.ofNat 32 (4 * idx) + 4 =
      word + BitVec.ofNat 32 (4 * (idx + 1)) := by
  have further : BitVec.ofNat 32 (4 * (idx + 1)) =
      BitVec.ofNat 32 (4 * idx) + 4 := by
    rw [Nat.mul_add, BitVec.ofNat_add]
    rfl
  rw [further, BitVec.add_assoc]

theorem AtWord.next
    (atWord : setup.AtWord idx state.ram)
    (answer : BitVec 32) :
    setup.AtWord (idx + 1) (state.afterWord answer).ram := by
  obtain ⟨command, _, addrLow, addrHigh, offset⟩ :=
    advanced_registers state.ram
  constructor
  all_goals rw [DmaState.afterWord, moved_bar2Mem]
  · dsimp only
    rw [offset, atWord.offset, add_four]
  · dsimp only
    rw [addrLow, atWord.addrLow, add_four]
  · exact addrHigh.trans atWord.addrHigh
  · exact command.trans atWord.command

/-! ## The transfers that are made -/

/-- Two states with the same memory and the same transfers. -/
def SameTransfers (first second : DmaState) : Prop :=
  first.transfers = second.transfers ∧
    first.ram.memorySpace = second.ram.memorySpace

theorem SameTransfers.moved
    {first second : DmaState}
    (same : SameTransfers first second)
    (isWrite : Bool)
    (addr : BitVec 64)
    (place : Option (Fin 0x4000))
    (answer : BitVec 32) :
    SameTransfers (first.moved isWrite addr place answer)
      (second.moved isWrite addr place answer) := by
  obtain ⟨sameList, sameMemory⟩ := same
  have sameWord : first.ram.wordAt place = second.ram.wordAt place := by
    cases place with
    | none => rfl
    | some word => exact congrFun sameMemory word
  rw [DmaState.moved, DmaState.moved, sameList, sameWord]
  cases isWrite with
  | true => exact ⟨rfl, sameMemory⟩
  | false =>
      refine ⟨rfl, ?_⟩
      cases place with
      | none => exact sameMemory
      | some word =>
          exact congrArg
            (fun memory => Function.update memory word answer) sameMemory

/-- Where address and place are right for each word, so are the transfers. -/
theorem afterWords_same
    {answers : List (BitVec 32)}
    {wanted : DmaState}
    (agree : ∀ ahead < answers.length,
      setup.registerAddr (idx + ahead) = setup.wordAddr (idx + ahead) ∧
        setup.registerPlace (idx + ahead) = setup.wordPlace (idx + ahead))
    (atWord : setup.AtWord idx state.ram)
    (same : SameTransfers state wanted) :
    SameTransfers (state.afterWords answers)
      (setup.transferred idx answers wanted) := by
  induction answers generalizing idx state wanted with
  | nil => exact same
  | cons answer answers inductionHypothesis =>
      rw [DmaState.afterWords, List.foldl_cons, ← DmaState.afterWords,
        transferred]
      apply inductionHypothesis
      · intro ahead within
        have next := agree (ahead + 1) (by simpa using within)
        rwa [← Nat.add_assoc, Nat.add_right_comm] at next
      · exact atWord.next answer
      · obtain ⟨sameAddr, samePlace⟩ := agree 0 (by simp)
        rw [Nat.add_zero] at sameAddr samePlace
        rw [atWord.afterWord_eq, sameAddr, samePlace]
        apply SameTransfers.moved
        exact ⟨same.1, same.2⟩

theorem moved_ends
    (isWrite : Bool)
    (addr : BitVec 64)
    (place : Option (Fin 0x4000))
    (answer : BitVec 32)
    (state : DmaState) :
    (state.moved isWrite addr place answer).transfers.map Transfer.ends =
      state.transfers.map Transfer.ends ++ [(addr, place)] := by
  rw [DmaState.moved]
  split <;> simp [Transfer.ends]

/-- The ends of the transfers that are made. -/
theorem afterWords_ends
    (answers : List (BitVec 32))
    (atWord : setup.AtWord idx state.ram) :
    (state.afterWords answers).transfers.map Transfer.ends =
      state.transfers.map Transfer.ends ++
        (List.range' idx answers.length).map fun word =>
          (setup.registerAddr word, setup.registerPlace word) := by
  induction answers generalizing idx state with
  | nil => simp [DmaState.afterWords]
  | cons answer answers inductionHypothesis =>
      rw [DmaState.afterWords, List.foldl_cons, ← DmaState.afterWords,
        inductionHypothesis (atWord.next answer), atWord.afterWord_eq,
        moved_ends, List.length_cons, List.range'_succ, List.map_cons,
        List.append_assoc]
      rfl

/-- The ends of the transfers that should be made. -/
theorem transferred_ends
    (answers : List (BitVec 32)) :
    (setup.transferred idx answers state).transfers.map Transfer.ends =
      state.transfers.map Transfer.ends ++
        (List.range' idx answers.length).map fun word =>
          (setup.wordAddr word, setup.wordPlace word) := by
  induction answers generalizing idx state with
  | nil => simp [transferred]
  | cons answer answers inductionHypothesis =>
      rw [transferred, inductionHypothesis, moved_ends, List.length_cons,
        List.range'_succ, List.map_cons, List.append_assoc]
      rfl

/-- The transfers are right only where each address and place is. -/
theorem agree_of_transfers
    {answers : List (BitVec 32)}
    {ram : RamDev}
    (atWord : setup.AtWord 0 ram)
    (same : (DmaState.afterWords ⟨ram, []⟩ answers).transfers =
      (setup.transferred 0 answers ⟨ram, []⟩).transfers)
    (ahead : Nat)
    (within : ahead < answers.length) :
    setup.registerAddr ahead = setup.wordAddr ahead ∧
      setup.registerPlace ahead = setup.wordPlace ahead := by
  have ends := congrArg (List.map Transfer.ends) same
  have atStart : setup.AtWord 0 (DmaState.mk ram []).ram := atWord
  rw [afterWords_ends answers atStart, transferred_ends,
    List.append_cancel_left_eq, List.map_inj_left] at ends
  have pair := ends ahead (by simpa using within)
  exact Prod.mk.inj pair

/-! ## Which words are right -/

theorem memoryPlace_congr
    {first second : Nat}
    (sameWord : first / 4 = second / 4) :
    memoryPlace first = memoryPlace second := by
  by_cases inside : first < 0x10000
  · have insideSecond : second < 0x10000 := by omega
    rw [memoryPlace, memoryPlace, dif_pos inside, dif_pos insideSecond]
    exact congrArg some (Fin.ext sameWord)
  · have notInside : ¬second < 0x10000 := by omega
    rw [memoryPlace, memoryPlace, dif_neg inside, dif_neg notInside]

/-- The address is right while its low half does not overflow. -/
theorem registerAddr_eq_iff
    (setup : DmaSetup)
    (small : 4 * idx < 2 ^ 32) :
    setup.registerAddr idx = setup.wordAddr idx ↔
      setup.addrLow.toNat + 4 * idx < 2 ^ 32 := by
  have lowBound := setup.addrLow.isLt
  have highBound := setup.addrHigh.isLt
  rw [← BitVec.toNat_inj, registerAddr, wordAddr, BitVec.toNat_add,
    joinedWords_toNat, joinedWords_toNat, BitVec.toNat_add,
    BitVec.toNat_ofNat, BitVec.toNat_ofNat]
  omega

/-- The place is right while the offset does not overflow. -/
theorem registerPlace_eq
    (setup : DmaSetup)
    (below : setup.offset.toNat < 0xfffffffc)
    (within : setup.offset.toNat + 4 * idx < 2 ^ 32) :
    setup.registerPlace idx = setup.wordPlace idx := by
  apply memoryPlace_congr
  rw [BitVec.toNat_add, BitVec.toNat_umod, BitVec.toNat_ofNat]
  change (setup.offset.toNat % 4294967292 + 4 * idx % 2 ^ 32) % 2 ^ 32 / 4 = _
  omega

/-- A place is wrong at the first word past the end of the offsets. -/
theorem registerPlace_ne
    (setup : DmaSetup)
    (overflows :
      setup.offset.toNat < 0xfffffffc ∧
          setup.offset.toNat / 4 * 4 + 4 * idx = 2 ^ 32 ∨
        0xfffffffc ≤ setup.offset.toNat ∧ idx = 0) :
    setup.registerPlace idx ≠ setup.wordPlace idx := by
  have bounded := setup.offset.isLt
  have wraps : (setup.offset % 0xfffffffc +
      BitVec.ofNat 32 (4 * idx)).toNat < 4 := by
    rw [BitVec.toNat_add, BitVec.toNat_umod, BitVec.toNat_ofNat]
    change (setup.offset.toNat % 4294967292 + 4 * idx % 2 ^ 32) % 2 ^ 32 < 4
    omega
  have pastEnd : ¬setup.offset.toNat / 4 * 4 + 4 * idx < 0x10000 := by
    omega
  rw [registerPlace, wordPlace, memoryPlace, memoryPlace,
    dif_pos (Nat.lt_trans wraps (by decide)), dif_neg pastEnd]
  exact Option.some_ne_none _

/-- All words of a transfer are right exactly if nothing overflows. -/
theorem words_agree_iff
    (setup : DmaSetup)
    {words : Nat}
    (notNone : 0 < words)
    (bounded : 4 * words < 2 ^ 32 + 4) :
    (∀ ahead < words,
        setup.registerAddr ahead = setup.wordAddr ahead ∧
          setup.registerPlace ahead = setup.wordPlace ahead) ↔
      setup.addrLow.toNat + 4 * words ≤ 2 ^ 32 + 3 ∧
        setup.offset.toNat < 0xfffffffc ∧
          setup.offset.toNat + 4 * words ≤ 2 ^ 32 + 3 := by
  have offsetBound := setup.offset.isLt
  constructor
  · intro agree
    have last := (setup.registerAddr_eq_iff (by omega)).mp
      (agree (words - 1) (by omega)).1
    have below : setup.offset.toNat < 0xfffffffc := by
      by_contra notBelow
      exact setup.registerPlace_ne (.inr ⟨Nat.not_lt.mp notBelow, rfl⟩)
        (agree 0 notNone).2
    refine ⟨by omega, below, ?_⟩
    by_contra overflows
    have first : (2 ^ 32 - setup.offset.toNat / 4 * 4) / 4 < words := by omega
    exact setup.registerPlace_ne (.inl ⟨below, by omega⟩) (agree _ first).2
  · rintro ⟨addrFits, below, offsetFits⟩ ahead within
    constructor
    · rw [setup.registerAddr_eq_iff (by omega)]
      omega
    · exact setup.registerPlace_eq below (by omega)

/-! ## The whole operation -/

/-- With the GO bit, the words are transferred and the bit is cleared. -/
theorem start_doBusMasterOperations
    (setup : DmaSetup)
    (command : state.ram.bar2Mem commandWord = setup.command) :
    doBusMasterOperations.start state =
      (transferWords.start state).bind fun _ final =>
        .finish () final.clearGo := by
  simp only [doBusMasterOperations, Program.start_bind,
    Program.start_getState, Behavior.finish_bind, command, if_pos setup.go]
  rfl

theorem clearGo_command (state : DmaState) :
    state.clearGo.ram.bar2Mem commandWord &&& 0x01 = 0 := by
  have cleared : state.clearGo.ram.bar2Mem commandWord =
      state.ram.bar2Mem commandWord &&& ~~~0x01 :=
    Function.update_self commandWord _ state.ram.bar2Mem
  rw [cleared, BitVec.and_assoc]
  exact BitVec.and_zero

variable {ram : RamDev}
variable {answers : List (BitVec 32)}

/-- The count in the register. -/
theorem InRegisters.count_eq
    (inRegisters : setup.InRegisters ram) :
    (ram.bar2Mem countWord).toNat = setup.count.toNat % 0xfffffffc := by
  rw [inRegisters.count, BitVec.toNat_umod]
  rfl

/-- Four times as many bytes as answers are transferred with these. -/
theorem InRegisters.returns
    (inRegisters : setup.InRegisters ram)
    (isCount : setup.count.toNat % 0xfffffffc = 4 * answers.length) :
    ∃ exchanges, Returns (doBusMasterOperations.start ⟨ram, []⟩) answers
      exchanges () (DmaState.afterWords ⟨ram, []⟩ answers).clearGo := by
  have isRegister :
      ((DmaState.mk ram []).ram.bar2Mem countWord).toNat =
        4 * answers.length :=
    inRegisters.count_eq.trans isCount
  obtain ⟨exchanges, returns⟩ := transferWords_returns isRegister
  have whole : Returns (doBusMasterOperations.start ⟨ram, []⟩)
      (answers ++ []) (exchanges ++ []) ()
      (DmaState.afterWords ⟨ram, []⟩ answers).clearGo := by
    rw [setup.start_doBusMasterOperations inRegisters.command]
    exact returns.bind (.finish () _)
  rw [List.append_nil] at whole
  exact ⟨_, whole⟩

/-- A count in the register that is no multiple of 4 runs forever. -/
theorem InRegisters.multiple
    {exchanges : List (DmaState × BitVec 32)}
    {final : DmaState}
    (inRegisters : setup.InRegisters ram)
    (returns : Returns (doBusMasterOperations.start ⟨ram, []⟩) answers
      exchanges () final) :
    setup.count.toNat % 0xfffffffc % 4 = 0 := by
  by_contra notMultiple
  rw [setup.start_doBusMasterOperations inRegisters.command] at returns
  obtain ⟨_, _, _, _, _, _, _, first, _⟩ := returns.split
  refine transferWords_never_returns ?_ first
  rw [← inRegisters.count_eq] at notMultiple
  exact notMultiple

/-- Operations that end with the last word of the count have been exact. -/
theorem InRegisters.exact
    {exchanges : List (DmaState × BitVec 32)}
    {final : DmaState}
    (inRegisters : setup.InRegisters ram)
    (isCount : answers.length = setup.count.toNat / 4)
    (returns : Returns (doBusMasterOperations.start ⟨ram, []⟩) answers
      exchanges () final) :
    setup.count.toNat = 4 * answers.length ∧
      setup.count ≠ 0xfffffffc ∧
        final = (DmaState.afterWords ⟨ram, []⟩ answers).clearGo := by
  have bounded := setup.count.isLt
  have isMultiple := inRegisters.multiple returns
  -- What the register holds needs no more answers than these.
  have shorter : setup.count.toNat % 0xfffffffc =
      4 * (answers.take
        (setup.count.toNat % 0xfffffffc / 4)).length := by
    rw [List.length_take]
    omega
  obtain ⟨_, returnsEarly⟩ := inRegisters.returns shorter
  have same := returnsEarly.of_prefix returns (List.take_prefix _ _)
  rw [← same] at shorter returnsEarly
  refine ⟨?_, ?_, (returnsEarly.unique returns).2⟩
  · omega
  · rintro isLast
    rw [isLast] at shorter isCount
    change 0 = 4 * answers.length at shorter
    change answers.length = 1073741823 at isCount
    omega

/--
The operations make the programmed transfers exactly if the setup is in
bounds.
-/
theorem transfersAll_iff
    {writes : List (BitVec 64 × BitVec 32)}
    (programmed : setup.ProgrammedBy writes)
    (device : RamDevice) :
    setup.TransfersAll (programRegisters writes device).user ↔
      setup.InBounds := by
  have inRegisters := programmed.inRegisters device
  generalize (programRegisters writes device).user = ram at inRegisters ⊢
  have bounded := setup.count.isLt
  have isZero : setup.count = 0 ↔ setup.count.toNat = 0 := by
    rw [← BitVec.toNat_inj]
    rfl
  constructor
  · intro transfersAll
    let answers := List.replicate (setup.count.toNat / 4) (0 : BitVec 32)
    have isCount : answers.length = setup.count.toNat / 4 :=
      List.length_replicate
    obtain ⟨_, final, returns, transfers, _, _⟩ :=
      transfersAll answers isCount
    obtain ⟨whole, notLast, rfl⟩ := inRegisters.exact isCount returns
    have agree := agree_of_transfers inRegisters.atWord transfers
    have fits : setup.count ≠ 0 →
        setup.addrLow.toNat + 4 * answers.length ≤ 2 ^ 32 + 3 ∧
          setup.offset.toNat < 0xfffffffc ∧
            setup.offset.toNat + 4 * answers.length ≤ 2 ^ 32 + 3 := by
      intro someWord
      rw [ne_eq, isZero] at someWord
      exact (setup.words_agree_iff (by omega) (by omega)).mp agree
    rw [← whole] at fits
    exact ⟨by omega, notLast, fun someWord => (fits someWord).1,
      fun someWord => (fits someWord).2⟩
  · intro inBounds answers isCount
    have whole : setup.count.toNat % 0xfffffffc = 4 * answers.length := by
      have multiple := inBounds.multiple
      have below : setup.count.toNat ≠ 4294967292 := fun isLast =>
        inBounds.below (BitVec.eq_of_toNat_eq isLast)
      omega
    obtain ⟨exchanges, returns⟩ := inRegisters.returns whole
    have agree : ∀ ahead < answers.length,
        setup.registerAddr (0 + ahead) = setup.wordAddr (0 + ahead) ∧
          setup.registerPlace (0 + ahead) = setup.wordPlace (0 + ahead) := by
      intro ahead within
      have someWord : setup.count ≠ 0 := by
        rw [ne_eq, isZero]
        omega
      have multiple := inBounds.multiple
      have addrFits := inBounds.addr someWord
      obtain ⟨below, offsetFits⟩ := inBounds.offset someWord
      rw [Nat.zero_add]
      exact (setup.words_agree_iff (by omega) (by omega)).mpr
        ⟨by omega, below, by omega⟩ ahead within
    have atStart : setup.AtWord 0 (DmaState.mk ram []).ram :=
      inRegisters.atWord
    have same := afterWords_same agree atStart ⟨rfl, rfl⟩
    exact ⟨exchanges, _, returns, same.1, same.2, clearGo_command _⟩

/-- Two words are read to the start of the memory. -/
theorem transfersAll_twoWords :
    (DmaSetup.mk 8 0 0xfffffff8 1 1 (by decide)).TransfersAll
      (programRegisters
        [(0x1004, 8), (0x1010, 0), (0x1008, 0xfffffff8), (0x100c, 1),
          (0x1000, 1)]
        ramdevDevice).user := by
  rw [transfersAll_iff (List.Perm.of_eq (by decide))]
  exact ⟨by decide, by decide, fun _ => by decide, fun _ => by decide⟩

/-- A count of five bytes is not rounded down, and never comes to its end. -/
theorem fiveBytes_not_transferred :
    ¬(DmaSetup.mk 5 0 0 0 1 (by decide)).TransfersAll
      (programRegisters
        [(0x1004, 5), (0x1010, 0), (0x1008, 0), (0x100c, 0), (0x1000, 1)]
        ramdevDevice).user := by
  intro transfersAll
  obtain ⟨_, _, returns, _⟩ := transfersAll [0] rfl
  have programmed : (DmaSetup.mk 5 0 0 0 1 (by decide)).ProgrammedBy
      [(0x1004, 5), (0x1010, 0), (0x1008, 0), (0x100c, 0), (0x1000, 1)] :=
    List.Perm.of_eq (by decide)
  have multiple := (programmed.inRegisters ramdevDevice).multiple returns
  revert multiple
  decide

end DmaSetup

end Simbus.Pci
