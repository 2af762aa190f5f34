import Simbus.Libsimbus.Memdev

/-!
# The path of a load or a save

The client packs a path into words and the device takes it apart again.  What
the registers held before does not matter, since a zero follows the path.
-/

namespace Simbus.Libsimbus.Memdev

open Vpi.Memory

/-! ## One word -/

/-- The word of four bytes, the low one first. -/
def packBytes (first second third fourth : Byte) : BitVec 32 :=
  first.setWidth 32 ||| second.setWidth 32 <<< 8 |||
    third.setWidth 32 <<< 16 ||| fourth.setWidth 32 <<< 24

theorem wordBytes_packBytes (first second third fourth : Byte) :
    wordBytes (packBytes first second third fourth) =
      [first, second, third, fourth] := by
  unfold wordBytes packBytes
  congr
  all_goals
    ext place bounded
    simp
    try grind

/-- A character is placed in the word as an unsigned byte. -/
def Places (place : Byte → Nat → BitVec 64) : Prop :=
  ∀ char shift, (place char shift).setWidth 32 = char.setWidth 32 <<< shift

theorem getElem_mask
    {lane : Nat}
    (bounded : lane < 32) :
    (255#32)[lane] = decide (lane < 8) := by
  rw [← BitVec.getLsbD_eq_getElem, BitVec.getLsbD_ofNat]
  simp [bounded, Nat.testBit_two_pow_sub_one 8 lane]

/-- The mask takes the bits that the sign of a character has filled. -/
theorem masked_char
    (char : Byte)
    {lane : Nat}
    (bounded : lane < 32) :
    ((char.signExtend 32)[lane] && (255#32)[lane]) = char.getLsbD lane := by
  rw [getElem_mask bounded, BitVec.getElem_signExtend]
  grind

theorem places_loadChar : Places loadChar := by
  intro char shift
  ext lane bounded
  by_cases low : lane < shift
  · simp [loadChar, low]
  · simpa [loadChar, low] using masked_char char (by omega)

/-- The sign of an `int` is beyond the bits of the word. -/
theorem saveChar_low (char : Byte) (shift : Nat) :
    (saveChar char shift).setWidth 32 = (loadChar char shift).setWidth 32 := by
  rw [saveChar, loadChar, BitVec.setWidth_and, BitVec.setWidth_and]
  congr 1
  ext lane bounded
  have inLong : lane < 64 := by
    omega
  simp only [BitVec.getElem_setWidth, BitVec.getLsbD_signExtend, bounded, inLong,
    BitVec.getLsbD_setWidth, if_pos, decide_true, Bool.true_and]

theorem places_saveChar : Places saveChar := fun char shift =>
  (saveChar_low char shift).trans (places_loadChar char shift)

/-! ## The words of a path -/

section Words

variable {place : Byte → Nat → BitVec 64}
variable {file : List Byte}

theorem packWord_word
    (places : Places place) :
    (packWord place file).1 =
      packBytes (firstChar file) (firstChar (advance file))
        (firstChar (advance (advance file)))
        (firstChar (advance (advance (advance file)))) := by
  simp only [packWord, packBytes, places _ _, BitVec.shiftLeft_zero]

theorem advance_eq_tail
    (noZero : 0 ∉ file) :
    advance file = file.tail := by
  cases file with
  | nil =>
      rfl
  | cons char rest =>
      exact if_pos (ne_of_mem_of_not_mem List.mem_cons_self noZero)

theorem advance_noZero
    (noZero : 0 ∉ file) :
    0 ∉ advance file := by
  rw [advance_eq_tail noZero]
  exact fun inTail => noZero (List.mem_of_mem_tail inTail)

theorem packWord_rest
    (noZero : 0 ∉ file) :
    (packWord place file).2 = file.drop 4 := by
  have second := advance_noZero noZero
  have third := advance_noZero second
  have fourth := advance_noZero third
  show advance (advance (advance (advance file))) = _
  rw [advance_eq_tail fourth, advance_eq_tail third, advance_eq_tail second,
    advance_eq_tail noZero]
  simp [← List.drop_one]

/-- A word gives four characters of the path, or the end of it. -/
theorem extractWords_packWord
    (places : Places place)
    (noZero : 0 ∉ file)
    (words : List (BitVec 32)) :
    extractWords ((packWord place file).1 :: words) =
      if file.length < 4 then file ++ [0]
      else file.take 4 ++ extractWords words := by
  have second := advance_noZero noZero
  have third := advance_noZero second
  rw [extractWords, packWord_word places, wordBytes_packBytes,
    advance_eq_tail third, advance_eq_tail second, advance_eq_tail noZero]
  match file with
  | [] =>
      rfl
  | [first] =>
      have first0 : ¬ first = 0#8 := fun isZero => noZero (by simp [isZero])
      simp [firstChar, throughZero, first0]
  | [first, next] =>
      have first0 : ¬ first = 0#8 := fun isZero => noZero (by simp [isZero])
      have next0 : ¬ next = 0#8 := fun isZero => noZero (by simp [isZero])
      simp [firstChar, throughZero, first0, next0]
  | [first, next, last] =>
      have first0 : ¬ first = 0#8 := fun isZero => noZero (by simp [isZero])
      have next0 : ¬ next = 0#8 := fun isZero => noZero (by simp [isZero])
      have last0 : ¬ last = 0#8 := fun isZero => noZero (by simp [isZero])
      simp [firstChar, throughZero, first0, next0, last0]
  | first :: second :: third :: fourth :: rest =>
      have kept : (0 : Byte) ∉ [first, second, third, fourth] := by
        intro inWord
        refine noZero ?_
        simp only [List.mem_cons, List.not_mem_nil, or_false] at inWord ⊢
        tauto
      have long : ¬ (first :: second :: third :: fourth :: rest).length < 4 := by
        simp
      rw [if_neg long]
      exact if_neg kept

/-- Unpacking stops at the zero behind the path. -/
theorem extractWords_pathWords
    (places : Places place)
    (noZero : 0 ∉ file)
    (behind : List (BitVec 32)) :
    extractWords (pathWords place file ++ 0 :: behind) = file ++ [0] := by
  induction file using pathWords.induct place with
  | case2 file noChar =>
      rw [pathWords, if_neg noChar]
      cases file with
      | nil =>
          rfl
      | cons char rest =>
          exact absurd (not_not.mp noChar)
            (fun isZero => noZero (isZero ▸ List.mem_cons_self))
  | case1 file someChar inductionHypothesis =>
      rw [pathWords, if_pos someChar, List.cons_append,
        extractWords_packWord places noZero]
      split_ifs with short
      · rfl
      · rw [inductionHypothesis, packWord_rest noZero, ← List.append_assoc,
          List.take_append_drop]
        rw [packWord_rest noZero]
        exact fun inRest => noZero (List.mem_of_mem_drop inRest)

theorem pathWords_length
    (noZero : 0 ∉ file) :
    4 * (pathWords place file).length ≤ file.length + 3 := by
  induction file using pathWords.induct place with
  | case2 file noChar =>
      rw [pathWords, if_neg noChar]
      simp
  | case1 file someChar inductionHypothesis =>
      have restNoZero : 0 ∉ (packWord place file).2 := by
        rw [packWord_rest noZero]
        exact fun inRest => noZero (List.mem_of_mem_drop inRest)
      have rest := inductionHypothesis restNoZero
      have someBytes : file.length ≠ 0 := fun none =>
        someChar (by rw [List.eq_nil_of_length_eq_zero none]; rfl)
      rw [packWord_rest noZero, List.length_drop] at rest
      rw [pathWords, if_pos someChar, List.length_cons, packWord_rest noZero]
      omega

end Words

/-! ## The registers -/

/-- Every word that is written at `4 * index` lands in the register `index`. -/
def Lands (map : MemoryMap) : Prop :=
  ∀ index : Fin controlCount,
    map.address (BitVec.ofNat 32 (4 * index.val)) = 4 * index.val

section Registers

variable {map : MemoryMap}

/-- The words land where the memory has room for all registers. -/
theorem lands_of_roomy
    (roomy : 4 * (controlCount - 1) < map.size) :
    Lands map := by
  intro index
  have isCount : controlCount = 1024 := rfl
  have bounded := index.isLt
  have isOffset : (BitVec.ofNat 64 (4 * index.val)).toNat = 4 * index.val := by
    rw [BitVec.toNat_ofNat, Nat.mod_eq_of_lt (by omega)]
  have sameOffset : BitVec.ofNat 32 (4 * index.val) =
      (BitVec.ofNat 64 (4 * index.val)).setWidth 32 := by
    apply BitVec.eq_of_toNat_eq
    rw [BitVec.toNat_setWidth, isOffset, BitVec.toNat_ofNat]
  rw [sameOffset, address_of_small (by omega), isOffset,
    Nat.mod_eq_of_lt (by omega)]

theorem take_setRegister
    (index : Fin controlCount)
    (word : BitVec 32) :
    (map.setRegister index word).controlRegs.toList.take (index.val + 1) =
      map.controlRegs.toList.take index.val ++ [word] := by
  have inside : index.val < map.controlRegs.toList.length := by
    rw [Vector.length_toList]
    exact index.isLt
  have length := List.length_take_of_le (Nat.le_of_lt inside)
  rw [MemoryMap.setRegister, Vector.toList_set,
    List.set_eq_take_append_cons_drop, if_pos inside, List.take_append, length,
    List.take_of_length_le (by omega), Nat.add_sub_cancel_left]
  rfl

variable (host : Host)

theorem m1writel_lands
    (lands : Lands map)
    {off : BitVec 64}
    {index : Fin controlCount}
    (isOffset : off.toNat = 4 * index.val)
    (notCommand : index ≠ 0)
    (val : BitVec 32) :
    m1writel host off val map = some (map.setRegister index val) := by
  refine m1writel_of_lands host ?_ notCommand val
  have sameOffset : off.setWidth 32 = BitVec.ofNat 32 (4 * index.val) := by
    apply BitVec.eq_of_toNat_eq
    rw [BitVec.toNat_setWidth, BitVec.toNat_ofNat, isOffset]
  rw [sameOffset]
  exact lands index

/-- Words are stored from a register on, and no register before it changes. -/
theorem writeWords_stores
    (lands : Lands map)
    {start : Nat}
    (notCommand : 0 < start)
    {off : BitVec 64}
    (isOffset : off.toNat = 4 * start)
    {words : List (BitVec 32)}
    (room : start + words.length ≤ controlCount) :
    ∃ after,
      writeWords host off words map = some after ∧
        ∃ behind, after.controlRegs.toList =
          map.controlRegs.toList.take start ++ words ++ behind := by
  induction words generalizing map start off with
  | nil =>
      exact ⟨map, rfl, map.controlRegs.toList.drop start, by simp⟩
  | cons word rest inductionHypothesis =>
      rw [List.length_cons] at room
      obtain ⟨index, rfl⟩ : ∃ index : Fin controlCount, index.val = start :=
        ⟨⟨start, by omega⟩, rfl⟩
      have behindCommand : index ≠ 0 := fun isCommand =>
        Nat.ne_of_gt notCommand (congrArg Fin.val isCommand)
      have landsAfter : Lands (map.setRegister index word) := lands
      have roomAfter : index.val + 1 + rest.length ≤ controlCount := by
        omega
      have nextOffset : (off + 4).toNat = 4 * (index.val + 1) := by
        have small : controlCount = 1024 := rfl
        have isFour : (4 : BitVec 64).toNat = 4 := rfl
        rw [BitVec.toNat_add, isOffset, isFour, Nat.mod_eq_of_lt (by omega)]
        omega
      obtain ⟨after, writes, behind, isAfter⟩ :=
        inductionHypothesis landsAfter (Nat.succ_pos index.val) nextOffset
          roomAfter
      refine ⟨after, ?_, behind, ?_⟩
      · rw [writeWords, m1writel_lands host lands isOffset behindCommand,
          Option.bind_eq_bind, Option.bind_some, writes]
      · rw [isAfter, take_setRegister]
        simp

/-- The registers hold the words of the path, and zero behind them. -/
theorem writePath_stores
    {place : Byte → Nat → BitVec 64}
    {file : List Byte}
    (lands : Lands map)
    (noZero : 0 ∉ file)
    (short : file.length ≤ 4 * (controlCount - 4))
    (offset : BitVec 64)
    (count : BitVec 32) :
    ∃ after, writePath place host offset count file map = some after ∧
      ∃ behind, after.controlRegs.toList.drop 3 =
        pathWords place file ++ 0 :: behind := by
  have wordCount : 4 * (pathWords place file).length ≤ file.length + 3 :=
    pathWords_length noZero
  have stored : controlCount = 1024 := rfl
  have atOffset (word : BitVec 32) :
      m1writel host 4 word map = some (map.setRegister 1 word) :=
    m1writel_lands host lands (by decide) (by decide) word
  have atCount (offset word : BitVec 32) :
      m1writel host 8 word (map.setRegister 1 offset) =
        some ((map.setRegister 1 offset).setRegister 2 word) := by
    have landsAfter : Lands (map.setRegister 1 offset) := lands
    exact m1writel_lands host landsAfter (by decide) (by decide) word
  let told := (map.setRegister 1 (offset.setWidth 32)).setRegister 2 count
  have toldLands : Lands told := lands
  have room : 3 + (pathWords place file ++ [0]).length ≤ controlCount := by
    rw [List.length_append, List.length_singleton]
    omega
  have atPath : (12 : BitVec 64).toNat = 4 * 3 := by
    decide
  obtain ⟨after, writes, behind, isAfter⟩ :=
    writeWords_stores host toldLands (by decide) atPath room
  refine ⟨after, ?_, behind, ?_⟩
  · rw [writePath, atOffset, Option.bind_eq_bind, Option.bind_some, atCount,
      Option.bind_some]
    exact writes
  · have length : (told.controlRegs.toList.take 3).length = 3 := by
      rw [List.length_take, Vector.length_toList]
      rfl
    rw [isAfter, List.append_assoc, List.drop_append_of_le_length (by omega),
      List.drop_of_length_le (by omega)]
    simp

end Registers

/-! ## The path -/

/--
The device takes out of its registers just the path that the client packed into
them, with the zero behind it.
-/
theorem extractPathFromLoad_writePath
    {place : Byte → Nat → BitVec 64}
    {file : List Byte}
    {map : MemoryMap}
    (isClient : place = loadChar ∨ place = saveChar)
    (lands : Lands map)
    (noZero : 0 ∉ file)
    (short : file.length ≤ 4 * (controlCount - 4))
    (host : Host)
    (offset : BitVec 64)
    (count : BitVec 32) :
    ∃ after, writePath place host offset count file map = some after ∧
      ∀ path : List Byte,
        (extractPathFromLoad after.controlRegs path).take (file.length + 1) =
          file ++ [0] := by
  have places : Places place := by
    obtain rfl | rfl := isClient
    · exact places_loadChar
    · exact places_saveChar
  obtain ⟨after, writes, behind, stored⟩ :=
    writePath_stores host lands noZero short offset count
  refine ⟨after, writes, fun path => ?_⟩
  simp only [extractPathFromLoad]
  rw [stored, extractWords_pathWords places noZero]
  exact List.take_left' (by simp)

/-- A page of zeros, with older words in the registers. -/
def usedPage : MemoryMap where
  size := 4096
  base := Vector.replicate 4096 0
  controlRegs := Vector.replicate controlCount 0x41414141
  someBytes := by decide
  mappable := by decide

theorem extractPathFromLoad_five :
    ∃ after, writePath saveChar noFiles 0 8 [97, 98, 99, 100, 101] usedPage =
        some after ∧
      ∀ path : List Byte, (extractPathFromLoad after.controlRegs path).take 6 =
        [97, 98, 99, 100, 101, 0] :=
  extractPathFromLoad_writePath (Or.inr rfl) (lands_of_roomy (by decide))
    (by decide) (by decide) noFiles 0 8

end Simbus.Libsimbus.Memdev
