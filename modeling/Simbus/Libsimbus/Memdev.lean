import Simbus.Vpi.Memory

/-!
# The client of the memory device

`simbus_pci_memdev.c`.  The control words are written and read over the bus;
here each of them reaches the device as a poke or a peek of its control region.
-/

namespace Simbus.Libsimbus.Memdev

open CheckedArray Vpi.Memory

/-- `m1writel`. -/
def m1writel
    (host : Host)
    (off : BitVec 64)
    (val : BitVec 32)
    (map : MemoryMap) : Option MemoryMap :=
  map.memoryPoke host (off.setWidth 32) val 1

/-- `m1readl`. -/
def m1readl
    (off : BitVec 64)
    (map : MemoryMap) : Option (BitVec 32) :=
  map.memoryPeek (off.setWidth 32) 1

/-! ## Compare -/

/-- Start a command and read its result. -/
def command
    (host : Host)
    (cmd : BitVec 32)
    (map : MemoryMap) : Option (BitVec 32 × MemoryMap) := do
  let map ← m1writel host 0 cmd map
  let rc ← m1readl 0 map
  return (rc, map)

/-- `file[0]`; behind its last byte a path has a zero. -/
def firstChar (file : List Byte) : Byte :=
  file.headD 0

/-- `if (file[0] != 0) file += 1`. -/
def advance (file : List Byte) : List Byte :=
  if firstChar file ≠ 0 then file.tail else file

/-- A character of `simbus_pci_memdev_load` at its place in the word. -/
def loadChar
    (char : Byte)
    (shift : Nat) : BitVec 64 :=
  (char.signExtend 32 <<< shift).setWidth 64 &&& (0xff : BitVec 64) <<< shift

/-- A character of `simbus_pci_memdev_save`, which shifts it as an `int`. -/
def saveChar
    (char : Byte)
    (shift : Nat) : BitVec 64 :=
  (char.signExtend 32 <<< shift).signExtend 64 &&& (0xff : BitVec 64) <<< shift

/-- A turn of the packing loop: a word, and the rest of the path. -/
def packWord
    (place : Byte → Nat → BitVec 64)
    (file : List Byte) : BitVec 32 × List Byte :=
  let word := (place (firstChar file) 0).setWidth 32
  let file := advance file
  let word := word ||| (place (firstChar file) 8).setWidth 32
  let file := advance file
  let word := word ||| (place (firstChar file) 16).setWidth 32
  let file := advance file
  let word := word ||| (place (firstChar file) 24).setWidth 32
  (word, advance file)

theorem advance_length_le (file : List Byte) :
    (advance file).length ≤ file.length := by
  unfold advance
  split <;> simp

theorem advance_length_lt
    {file : List Byte}
    (someChar : firstChar file ≠ 0) :
    (advance file).length < file.length := by
  cases file with
  | nil =>
      exact absurd rfl someChar
  | cons char rest =>
      rw [advance, if_pos someChar]
      simp

theorem packWord_length_lt
    (place : Byte → Nat → BitVec 64)
    {file : List Byte}
    (someChar : firstChar file ≠ 0) :
    (packWord place file).2.length < file.length :=
  calc (packWord place file).2.length
      ≤ (advance (advance (advance file))).length := advance_length_le _
    _ ≤ (advance (advance file)).length := advance_length_le _
    _ ≤ (advance file).length := advance_length_le _
    _ < file.length := advance_length_lt someChar

/-- The words of the packing loop. -/
def pathWords
    (place : Byte → Nat → BitVec 64)
    (file : List Byte) : List (BitVec 32) :=
  if firstChar file ≠ 0 then
    (packWord place file).1 :: pathWords place (packWord place file).2
  else
    []
  termination_by file.length
  decreasing_by exact packWord_length_lt place ‹_›

/-- Write words to consecutive places. -/
def writeWords
    (host : Host)
    (rc : BitVec 64) : List (BitVec 32) → MemoryMap → Option MemoryMap
  | [], map => some map
  | word :: rest, map => do
      let map ← m1writel host rc word map
      writeWords host (rc + 4) rest map

/-- The arguments of a transfer, with the path and a zero word after it. -/
def writePath
    (place : Byte → Nat → BitVec 64)
    (host : Host)
    (offset : BitVec 64)
    (count : BitVec 32)
    (file : List Byte)
    (map : MemoryMap) : Option MemoryMap := do
  let map ← m1writel host 4 (offset.setWidth 32) map
  let map ← m1writel host 8 count map
  writeWords host 12 (pathWords place file ++ [0]) map

/-- `simbus_pci_memdev_load`. -/
def simbusPciMemdevLoad
    (host : Host)
    (offset : BitVec 64)
    (count : BitVec 32)
    (file : List Byte)
    (map : MemoryMap) : Option (BitVec 32 × MemoryMap) :=
  (writePath loadChar host offset count file map).bind (command host 2)

/-- `simbus_pci_memdev_save`. -/
def simbusPciMemdevSave
    (host : Host)
    (offset : BitVec 64)
    (count : BitVec 32)
    (file : List Byte)
    (map : MemoryMap) : Option (BitVec 32 × MemoryMap) :=
  (writePath saveChar host offset count file map).bind (command host 3)

/-! ## Where the control words arrive -/

section Arrival

variable (host : Host)
variable {map : MemoryMap}

theorem address_of_small
    {off : BitVec 64}
    (small : off.toNat < 2 ^ 31) :
    map.address (off.setWidth 32) = off.toNat % map.size := by
  have isValue : (off.setWidth 32).toNat = off.toNat := by
    rw [BitVec.toNat_setWidth]
    omega
  have positive : (off.setWidth 32).msb = false := by
    rw [BitVec.msb_eq_decide, isValue]
    simpa using small
  rw [MemoryMap.address, BitVec.signExtend_eq_setWidth_of_msb_false positive,
    BitVec.toNat_setWidth, isValue]
  congr 1
  omega

/-- A word behind the command is stored in its register. -/
theorem m1writel_of_lands
    {off : BitVec 64}
    {index : Fin controlCount}
    (lands : map.address (off.setWidth 32) = 4 * index.val)
    (notCommand : index ≠ 0)
    (val : BitVec 32) :
    m1writel host off val map = some (map.setRegister index val) := by
  have notFirst : index.val ≠ 0 := fun isFirst => notCommand (Fin.ext isFirst)
  have atIndex : map.address (off.setWidth 32) / 4 = index.val := by
    omega
  have bounded : map.address (off.setWidth 32) / 4 < controlCount := by
    rw [atIndex]
    exact index.isLt
  show (if bounded : map.address (off.setWidth 32) / 4 < controlCount then _
    else _) = _
  rw [dif_pos bounded, if_neg (by omega)]
  congr 2
  exact Fin.ext atIndex

end Arrival

end Simbus.Libsimbus.Memdev
