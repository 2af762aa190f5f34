import Simbus.CheckedArray

/-!
# The memory behind the PCI memory device

`simbus_mem.c` of the VPI module.  A memory is a mapped file together with
control registers.  `$simbus_mem_peek` and `$simbus_mem_poke` access either of
them, and a poke of the first register runs a command on the memory.  An access
that leaves the memory or the registers has no result.
-/

namespace Simbus.Vpi.Memory

open CheckedArray

abbrev Byte : Type := BitVec 8

/-- `CONTROL_COUNT`. -/
def controlCount : Nat := 4096 / 4

instance : NeZero controlCount :=
  ⟨by decide⟩

/-! ## The memories -/

/--
`struct memory_map_t` of an opened memory.  `mmap` takes neither an empty
region nor a negative size.
-/
structure MemoryMap where
  size : Nat
  base : Vector Byte size
  controlRegs : Vector (BitVec 32) controlCount
  someBytes : 0 < size
  mappable : size < 2 ^ 31

/--
What the calls find outside of the simulation: the files by their paths, the
number of bytes that a file takes of what is written to it, and what is left in
the path buffer of a command.
-/
structure Host where
  readFile : List Byte → Option (List Byte)
  writeFile : List Byte → Option (List Byte → BitVec 32)
  pathBuffer : Vector Byte 4096

/-- Files that cannot be opened. -/
def noFiles : Host where
  readFile := fun _ => none
  writeFile := fun _ => none
  pathBuffer := Vector.replicate 4096 0

/-- `memory_open_calltf`, for a file with some contents. -/
def memoryOpen
    (size : BitVec 32)
    (contents : Nat → Byte) : Option MemoryMap :=
  if positive : 0 < size.toInt then
    some
      { size := size.toNat
        base := Vector.ofFn fun place => contents place
        controlRegs := Vector.replicate controlCount 0
        someBytes := by
          have := BitVec.toInt_eq_toNat_cond size
          split at this <;> omega
        mappable := by
          have := BitVec.toInt_eq_toNat_cond size
          split at this <;> omega }
  else
    none

/-! ## Words and bytes -/

/-- The bytes of a word, the low one first. -/
def wordBytes (word : BitVec 32) : List Byte :=
  [word.setWidth 8, (word >>> 8).setWidth 8, (word >>> 16).setWidth 8,
    (word >>> 24).setWidth 8]

/-- The word of some bytes, the low one first. -/
def bytesWord (bytes : List Byte) : BitVec 32 :=
  bytes.foldr (fun byte word => byte.setWidth 32 ||| word <<< 8) 0

@[simp] theorem wordBytes_length (word : BitVec 32) :
    (wordBytes word).length = 4 :=
  rfl

/-! ## Paths -/

/-- The bytes up to and with the first zero. -/
def throughZero : List Byte → List Byte
  | [] => []
  | byte :: rest => if byte = 0 then [byte] else byte :: throughZero rest

/-- The bytes that the loop of `extract_path_from_load` stores. -/
def extractWords : List (BitVec 32) → List Byte
  | [] => []
  | word :: rest =>
      if 0 ∈ wordBytes word then throughZero (wordBytes word)
      else wordBytes word ++ extractWords rest

/-- `extract_path_from_load`, with the buffer that it stores into. -/
def extractPathFromLoad
    (controlRegs : Vector (BitVec 32) controlCount)
    (path : List Byte) : List Byte :=
  let stored := extractWords (controlRegs.toList.drop 3)
  stored ++ path.drop stored.length

/-- The path that `fopen` takes from a buffer. -/
def cString (path : List Byte) : List Byte :=
  path.takeWhile (· ≠ 0)

namespace MemoryMap

/-- The path that a command opens; the last byte of the buffer is cleared. -/
def openedPath
    (host : Host)
    (map : MemoryMap) : List Byte :=
  cString ((extractPathFromLoad map.controlRegs host.pathBuffer.toList).set
    4095 0)

/-- Set a control register. -/
def setRegister
    (map : MemoryMap)
    (index : Fin controlCount)
    (word : BitVec 32) : MemoryMap :=
  { map with controlRegs := map.controlRegs.set index word }

/-- The registers with the command, its result and its arguments. -/
def argument
    (map : MemoryMap)
    (index : Fin controlCount) : BitVec 32 :=
  map.controlRegs[index]

@[simp] theorem setRegister_size
    (map : MemoryMap)
    (index : Fin controlCount)
    (word : BitVec 32) :
    (map.setRegister index word).size = map.size :=
  rfl

@[simp] theorem setRegister_base
    (map : MemoryMap)
    (index : Fin controlCount)
    (word : BitVec 32) :
    (map.setRegister index word).base = map.base :=
  rfl

/-- The loop of `cmd_fill`. -/
def fillWords
    {size : Nat}
    (base : Vector Byte size)
    (first : Nat)
    (fill : BitVec 32) : Nat → Option (Vector Byte size)
  | 0 => some base
  | count + 1 => do
      let base ← putBlock? base first (wordBytes fill)
      fillWords base (first + 4) fill count

/-- The words that `cmd_fill` stores; only a sum past the memory is clipped. -/
def fillCount
    (map : MemoryMap)
    (base size : BitVec 32) : Nat :=
  if map.size < (base + size * 4).toNat then (map.size - base.toNat) / 4
  else size.toNat

/-- `cmd_fill`. -/
def cmdFill (map : MemoryMap) : Option MemoryMap :=
  let base := map.argument 1
  let size := map.argument 2
  if map.size ≤ base.toNat then
    some map
  else if size = 0 then
    some map
  else
    (fillWords map.base base.toNat (map.argument 3)
      (map.fillCount base size)).map fun bytes => { map with base := bytes }

/-- The differences that the loop of `cmd_compare` counts. -/
def differences : List Byte → List Byte → BitVec 32 → BitVec 32
  | first :: firsts, second :: seconds, count =>
      differences firsts seconds (if first ≠ second then count + 1 else count)
  | _, _, count => count

/-- The bytes that `cmd_compare` compares; the first region is clipped. -/
def compareCount
    (map : MemoryMap)
    (base1 size1 : BitVec 32) : Nat :=
  if map.size < (base1 + size1).toNat then map.size - base1.toNat
  else size1.toNat

/-- `cmd_compare`; the result of `memcmp` is replaced by the count. -/
def cmdCompare (map : MemoryMap) : Option MemoryMap :=
  let base1 := map.argument 1
  let size1 := map.argument 2
  let base2 := map.argument 3
  if map.size ≤ base1.toNat then
    some map
  else if map.size ≤ base2.toNat then
    some map
  else if size1 = 0 then
    some map
  else do
    let count := map.compareCount base1 size1
    let first ← block? map.base base1.toNat count
    let second ← block? map.base base2.toNat count
    return map.setRegister 0 (differences first second 0)

/-- `cmd_load`. -/
def cmdLoad
    (host : Host)
    (map : MemoryMap) : Option MemoryMap :=
  let base1 := map.argument 1
  let size1 := map.argument 2
  match host.readFile (map.openedPath host) with
  | none => some (map.setRegister 0 (-1))
  | some contents =>
      let taken := contents.take size1.toNat
      (putBlock? map.base base1.toNat taken).map fun bytes =>
        { map with base := bytes }.setRegister 0 (BitVec.ofNat 32 taken.length)

/-- `cmd_save`; an opened memory has its file. -/
def cmdSave
    (host : Host)
    (map : MemoryMap) : Option MemoryMap :=
  let base1 := map.argument 1
  let size1 := map.argument 2
  match host.writeFile (map.openedPath host) with
  | none => some (map.setRegister 0 (-1))
  | some write =>
      if map.size < (base1 + size1).toNat then
        some (map.setRegister 0 (-1))
      else
        (block? map.base base1.toNat size1.toNat).map fun bytes =>
          map.setRegister 0 (write bytes)

/-- `memdev_command`. -/
def memdevCommand
    (host : Host)
    (map : MemoryMap) : Option MemoryMap :=
  match (map.argument 0).toNat with
  | 0 => map.cmdFill
  | 1 => map.cmdCompare
  | 2 => map.cmdLoad host
  | 3 => map.cmdSave host
  | _ => some map

/-! ## Peek and poke -/

/-- The address that a call reaches; a negative value is taken as a `size_t`. -/
def address
    (map : MemoryMap)
    (value : BitVec 32) : Nat :=
  (value.signExtend 64).toNat % map.size

/-- `memory_peek_calltf`. -/
def memoryPeek
    (map : MemoryMap)
    (value bar : BitVec 32) : Option (BitVec 32) :=
  match bar.toNat with
  | 0 => (block? map.base (map.address value) 4).map bytesWord
  | 1 => map.controlRegs[map.address value / 4]?
  | _ => some 0xffffffff

/-- `memory_poke_calltf`. -/
def memoryPoke
    (host : Host)
    (map : MemoryMap)
    (value word bar : BitVec 32) : Option MemoryMap :=
  match bar.toNat with
  | 0 =>
      (putBlock? map.base (map.address value) (wordBytes word)).map fun bytes =>
        { map with base := bytes }
  | 1 =>
      if bounded : map.address value / 4 < controlCount then
        let stored := map.setRegister ⟨map.address value / 4, bounded⟩ word
        if map.address value = 0 then stored.memdevCommand host else some stored
      else
        none
  | _ => some map

end MemoryMap

/-! ## Sequences of calls -/

/-- A call of `$simbus_mem_peek` or of `$simbus_mem_poke`. -/
inductive Call where
  | peek (value bar : BitVec 32)
  | poke (value word bar : BitVec 32)

/-- The memory after a call. -/
def Call.step
    (host : Host)
    (map : MemoryMap) : Call → Option MemoryMap
  | .peek value bar => (map.memoryPeek value bar).map fun _ => map
  | .poke value word bar => map.memoryPoke host value word bar

/-- The memory after some calls, each with the files that it finds. -/
def run : List (Host × Call) → MemoryMap → Option MemoryMap
  | [], map => some map
  | (host, call) :: rest, map => (call.step host map).bind (run rest)

end Simbus.Vpi.Memory
