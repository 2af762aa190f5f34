import Simbus.Pci.VpiFeedback
import Simbus.Service.Command
import Mathlib

/-!
# Vectors between Verilog and the server

`set_handle_to_value` and `simbus_ready_calltf` of the VPI module, and the texts
of `process_client_ready_` and `protocol_t::bus_ready` in the server.  A vector
goes through words of 32 bits, texts with the highest bit first and arrays with
the lowest bit first.  The lines are built in buffers of a fixed size.
-/

namespace Simbus.Vpi

open FourValued Axi4 Service Service.Command

/-! ## Characters -/

def space : UInt8 := 32

/-- The character of a value. -/
def bitChar : Logic4 → UInt8
  | .zero => 48
  | .one => 49
  | .z => 122
  | .x => 120

theorem bitState_bitChar (value : Logic4) :
    bitState (bitChar value) = some value := by
  cases value <;> rfl

theorem bitChar_of_bitState
    {byte : UInt8}
    {value : Logic4}
    (isState : bitState byte = some value) :
    bitChar value = byte := by
  unfold bitState at isState
  split at isState <;> cases isState <;> rfl

theorem bitChar_inj
    {first second : Logic4} :
    bitChar first = bitChar second ↔ first = second := by
  constructor
  · intro same
    have states := bitState_bitChar first
    rw [same, bitState_bitChar] at states
    exact (Option.some.inj states).symm
  · exact congrArg bitChar

/-- The text of some values. -/
def textBytes (text : Text) : Bytes :=
  text.map bitChar

theorem bitStates_textBytes (text : Text) :
    bitStates (textBytes text) = some text := by
  induction text with
  | nil =>
      rfl
  | cons value text inductionHypothesis =>
      rw [textBytes, List.map_cons, bitStates, bitState_bitChar]
      change (bitStates (textBytes text)).bind _ = _
      rw [inductionHypothesis]
      rfl

/-- The characters of values are the texts of values. -/
theorem exists_textBytes
    {bytes : Bytes}
    (valued : ∀ byte ∈ bytes, byte ∈ stateBytes) :
    ∃ text, bytes = textBytes text := by
  induction bytes with
  | nil =>
      exact ⟨[], rfl⟩
  | cons byte bytes inductionHypothesis =>
      obtain ⟨isValue, others⟩ := List.forall_mem_cons.mp valued
      obtain ⟨text, rfl⟩ := inductionHypothesis others
      obtain ⟨value, isState⟩ :=
        Option.isSome_iff_exists.mp ((bitState_isSome_iff byte).mpr isValue)
      exact ⟨value :: text,
        congrArg (· :: _) (bitChar_of_bitState isState).symm⟩

/-! ## Vectors in words -/

/-- `s_vpi_vecval`. -/
structure VecVal where
  aval : BitVec 32
  bval : BitVec 32

/-- The value of a bit, from its word and its mask. -/
def vectorBit (vector : Nat → VecVal) (bit : Nat) : Logic4 :=
  let word := bit / 32
  let mask := (1 : BitVec 32) <<< (bit % 32)
  if (vector word).aval &&& mask ≠ 0 then
    if (vector word).bval &&& mask ≠ 0 then .x else .one
  else
    if (vector word).bval &&& mask ≠ 0 then .z else .zero

/-- `amask` and `bmask` of a character. -/
def masksOf : UInt8 → BitVec 32 × BitVec 32
  | 49 => (1, 0)
  | 120 => (1, 1)
  | 122 => (0, 1)
  | _ => (0, 0)

/-- A turn of the loop of `set_handle_to_value`. -/
def setBit
    (val : Bytes)
    (vector : Nat → VecVal)
    (idx : Nat) : Nat → VecVal :=
  let word := idx / 32
  let bit := idx % 32
  let src := val.getD (val.length - idx - 1) nul
  let (amask, bmask) := masksOf src
  Function.update vector word
    { aval := (vector word).aval ||| amask <<< bit
      bval := (vector word).bval ||| bmask <<< bit }

/-- The words that `set_handle_to_value` puts into a register. -/
def wordsOf (val : Bytes) : Nat → VecVal :=
  (List.range val.length).foldl (setBit val) fun _ => { aval := 0, bval := 0 }

/-- `set_handle_to_value`, which asserts the size of the register. -/
def setHandleToValue (size : Nat) (val : Bytes) : Option (Nat → VecVal) :=
  if size = val.length then some (wordsOf val) else none

/-! ## READY messages of the VPI module -/

/-- A vector as `vpi_get_value` gives it. -/
structure VpiVector where
  size : Nat
  words : Nat → VecVal

/-- The strengths of a bit. -/
structure Strength where
  s0 : Nat
  s1 : Nat

def vpiStrongDrive : Nat := 0x40

/-- A name, a signal and its drive reference. -/
structure ReadyArgument where
  name : Bytes
  sig : VpiVector
  strength : Nat → Strength
  drv : VpiVector

namespace ReadyArgument

/-- A character of `sig_string`, after the drive reference is subtracted. -/
def readyChar (argument : ReadyArgument) (bit : Nat) : UInt8 :=
  let char := bitChar (vectorBit argument.sig.words bit)
  let str := argument.strength bit
  if bitChar (vectorBit argument.drv.words bit) = char then
    bitChar .z
  else if char = bitChar .z then
    char
  else if char = bitChar .x then
    char
  else if str.s0 < vpiStrongDrive ∧ str.s1 < vpiStrongDrive then
    -- A pullup or pulldown.
    bitChar .z
  else
    char

/-- `sig_string`, from the highest bit down. -/
def sigString (argument : ReadyArgument) : Bytes :=
  (List.range argument.sig.size).reverse.map argument.readyChar

end ReadyArgument

/-- A name and a value, with a space before. -/
def tokenBytes (name value : Bytes) : Bytes :=
  space :: name ++ equals :: value

/-- The time with the shortest mantissa. -/
def shortestTime (now : Nat) (scale : Int) : Nat × Int :=
  if 10 ≤ now ∧ now % 10 = 0 then
    shortestTime (now / 10) (scale + 1)
  else
    (now, scale)
termination_by now
decreasing_by omega

/-- A number in decimals. -/
def decimal (value : Nat) : Bytes :=
  (Nat.toDigits 10 value).map fun digit => digit.toNat.toUInt8

/-- A signed number in decimals. -/
def signedDecimal (value : Int) : Bytes :=
  if value < 0 then 45 :: decimal value.natAbs else decimal value.natAbs

/-- A time: mantissa, the letter e and exponent. -/
def timeBytes (mant : Nat) (exp : Int) : Bytes :=
  decimal mant ++ 101 :: signedDecimal exp

/-- The keyword and the time of a READY. -/
def readyHeading (now : BitVec 64) (scale : Int) : Bytes :=
  let (mant, exp) := shortestTime now.toNat scale
  readyWord ++ space :: timeBytes mant exp

/-- The names and values of a READY. -/
def readyTokens (arguments : List ReadyArgument) : Bytes :=
  arguments.flatMap fun argument =>
    tokenBytes argument.name argument.sigString

/-- `MAX_MESSAGE`. -/
def maxMessage : Nat := 4096

/--
The message of `simbus_ready_calltf`.  There is none if an assertion fails, or
if `message` cannot hold it with the NUL at its end.
-/
def simbusReadyCalltf
    (now : BitVec 64)
    (scale : Int)
    (arguments : List ReadyArgument) : Option Bytes :=
  if ∀ argument ∈ arguments, argument.drv.size = argument.sig.size then
    let message :=
      readyHeading now scale ++ readyTokens arguments ++ [newline]
    if message.length + 1 ≤ maxMessage + 1 then some message else none
  else
    none

/-! ## UNTIL messages of the server -/

/-- The word `UNTIL`. -/
def untilWord : Bytes := [85, 78, 84, 73, 76]

/-- The keyword and the time of an UNTIL. -/
def untilHeading (mant : BitVec 64) (exp : Int) : Bytes :=
  untilWord ++ space :: timeBytes mant.toNat exp

/-- The names and values of an UNTIL. -/
def untilTokens (sigs : List (Bytes × Vector4)) : Bytes :=
  sigs.flatMap fun sig => tokenBytes sig.1 (textBytes (vectorText sig.2))

/-- The size of `buf` in `protocol_t::bus_ready`. -/
def untilBuffer : Nat := 4097

/--
The message of `protocol_t::bus_ready` for `send_signals`; there is none if
`buf` cannot hold it.  The newline takes the place of the NUL.
-/
def busReady
    (mant : BitVec 64)
    (exp : Int)
    (sigs : List (Bytes × Vector4)) : Option Bytes :=
  let message := untilHeading mant exp ++ untilTokens sigs ++ [newline]
  if message.length ≤ untilBuffer then some message else none

/-! ## Into the words and out of them -/

/-- The two bits of a value. -/
def bitsAt (vector : Nat → VecVal) (bit : Nat) : Bool × Bool :=
  ((vector (bit / 32)).aval.getLsbD (bit % 32),
    (vector (bit / 32)).bval.getLsbD (bit % 32))

theorem and_mask_ne_zero_iff
    (value : BitVec 32)
    (bit : Nat) :
    value &&& (1 : BitVec 32) <<< (bit % 32) ≠ 0 ↔
      value.getLsbD (bit % 32) = true := by
  have inside : bit % 32 < 32 := Nat.mod_lt _ (by decide)
  have isPower : (1 : BitVec 32) <<< (bit % 32) = BitVec.twoPow 32 (bit % 32) :=
    (BitVec.twoPow_eq 32 (bit % 32)).symm
  rw [isPower, BitVec.and_twoPow]
  split
  · rename_i isSet
    refine ⟨fun _ => isSet, fun _ isZero => ?_⟩
    have same := congrArg (BitVec.getLsbD · (bit % 32)) isZero
    simp [inside] at same
  · rename_i notSet
    exact ⟨fun differs => absurd rfl differs, fun isSet => absurd isSet notSet⟩

theorem vectorBit_eq
    (vector : Nat → VecVal)
    (bit : Nat) :
    vectorBit vector bit =
      match bitsAt vector bit with
      | (true, true) => .x
      | (true, false) => .one
      | (false, true) => .z
      | (false, false) => .zero := by
  simp only [vectorBit, and_mask_ne_zero_iff, bitsAt]
  cases (vector (bit / 32)).aval.getLsbD (bit % 32) <;>
    cases (vector (bit / 32)).bval.getLsbD (bit % 32) <;> rfl

/-- A mask is a bit in the lowest place. -/
theorem getLsbD_mask
    (isSet : Bool)
    (idx bit : Nat) :
    ((if isSet then 1 else 0 : BitVec 32) <<< (idx % 32)).getLsbD (bit % 32) =
      (isSet && decide (idx % 32 = bit % 32)) := by
  have inside : idx % 32 < 32 := Nat.mod_lt _ (by decide)
  cases isSet with
  | false =>
      simp
  | true =>
      have isPower : (1 : BitVec 32) <<< (idx % 32) =
          BitVec.twoPow 32 (idx % 32) :=
        (BitVec.twoPow_eq 32 (idx % 32)).symm
      rw [if_pos rfl, isPower, BitVec.getLsbD_twoPow, decide_eq_true inside]

/-- The masks of the character of a value. -/
theorem masksOf_bitChar (value : Logic4) :
    masksOf (bitChar value) =
      (if decide (value = .one ∨ value = .x) then 1 else 0,
        if decide (value = .z ∨ value = .x) then 1 else 0) := by
  cases value <;> rfl

/-- One turn sets the two bits of its value and no others. -/
theorem bitsAt_setBit
    {val : Bytes}
    {idx : Nat}
    {value : Logic4}
    (vector : Nat → VecVal)
    (isValue : val.getD (val.length - idx - 1) nul = bitChar value)
    (bit : Nat) :
    bitsAt (setBit val vector idx) bit =
      if bit = idx then
        ((bitsAt vector bit).1 || decide (value = .one ∨ value = .x),
          (bitsAt vector bit).2 || decide (value = .z ∨ value = .x))
      else
        bitsAt vector bit := by
  rw [setBit, isValue, masksOf_bitChar]
  simp only [bitsAt]
  by_cases sameWord : bit / 32 = idx / 32
  · rw [sameWord, Function.update_self]
    simp only [BitVec.getLsbD_or, getLsbD_mask]
    by_cases same : bit = idx
    · subst same
      simp
    · have otherPlace : idx % 32 ≠ bit % 32 := by omega
      simp [same, otherPlace]
  · have apart : bit ≠ idx := fun same => sameWord (congrArg (· / 32) same)
    rw [Function.update_of_ne sameWord, if_neg apart]

/-- The turns up to some index set the bits below it. -/
theorem bitsAt_setBits
    (text : Text)
    (count : Nat)
    (bounded : count ≤ text.length)
    (bit : Nat) :
    bitsAt
        ((List.range count).foldl (setBit (textBytes text))
          fun _ => { aval := 0, bval := 0 }) bit =
      if bit < count then
        (decide (text.reverse.getD bit .zero = .one ∨
            text.reverse.getD bit .zero = .x),
          decide (text.reverse.getD bit .zero = .z ∨
            text.reverse.getD bit .zero = .x))
      else
        (false, false) := by
  induction count with
  | zero =>
      simp [bitsAt]
  | succ count inductionHypothesis =>
      have inside : count < text.length := bounded
      have before := inductionHypothesis (Nat.le_of_lt inside)
      have isValue : (textBytes text).getD
          ((textBytes text).length - count - 1) nul =
            bitChar (text.reverse.getD count .zero) := by
        have place : text.length - count - 1 < text.length := by omega
        have mirrored : text.length - 1 - count = text.length - count - 1 := by
          omega
        rw [textBytes, List.length_map, List.getD_eq_getElem _ _ (by simpa),
          List.getElem_map, List.getD_eq_getElem _ _ (by simpa),
          List.getElem_reverse]
        simp only [mirrored]
      rw [List.range_succ, List.foldl_append, List.foldl_cons, List.foldl_nil,
        bitsAt_setBit _ isValue, before]
      by_cases last : bit = count
      · subst last
        simp
      · by_cases below : bit < count
        · simp [last, below, Nat.lt_succ_of_lt below]
        · have above : ¬ bit < count + 1 := by omega
          simp [last, below, above]

/-- A register loaded with a text holds its values, the lowest bit last. -/
theorem vectorBit_wordsOf
    (text : Text)
    {bit : Nat}
    (inside : bit < text.length) :
    vectorBit (wordsOf (textBytes text)) bit = text.reverse.getD bit .zero := by
  have isLength : (textBytes text).length = text.length := by
    rw [textBytes, List.length_map]
  rw [vectorBit_eq, wordsOf, isLength,
    bitsAt_setBits text text.length (Nat.le_refl _), if_pos inside]
  cases text.reverse.getD bit .zero <;> rfl

/-! ## From a register to its text -/

namespace ReadyArgument

variable {argument : ReadyArgument}
variable {bit : Nat}

/-- The characters are those of a slot that reports its own drive. -/
theorem readyChar_eq_readyBit
    {pullup : Bool}
    {strong : Logic4}
    (sampled : vectorBit argument.sig.words bit =
      if strong = .z ∧ pullup = true then .one else strong)
    (weak : strong ≠ .z ∨ pullup = true →
      ((argument.strength bit).s0 < vpiStrongDrive ∧
        (argument.strength bit).s1 < vpiStrongDrive ↔ strong = .z)) :
    argument.readyChar bit =
      bitChar (Pci.VpiSlot.readyBit pullup strong
        (vectorBit argument.drv.words bit)) := by
  simp only [readyChar, bitChar_inj, sampled, Pci.VpiSlot.readyBit]
  by_cases isDriver : vectorBit argument.drv.words bit =
      if strong = .z ∧ pullup = true then .one else strong
  · rw [if_pos isDriver, if_pos isDriver]
  · rw [if_neg isDriver, if_neg isDriver]
    by_cases drives : strong ≠ .z ∨ pullup = true
    · rw [if_congr (weak drives) rfl rfl]
      cases strong <;> cases pullup <;> rfl
    · rw [not_or, not_not] at drives
      simp [drives.1, drives.2]

/-- A register loaded with a text; nobody else drives, and it does strongly. -/
structure Loaded (argument : ReadyArgument) (val : Bytes) : Prop where
  put : ∃ words, setHandleToValue argument.sig.size val = some words ∧
    ∀ bit < argument.sig.size,
      bitsAt argument.sig.words bit = bitsAt words bit
  released : ∀ bit < argument.sig.size, vectorBit argument.drv.words bit = .z
  strong : ∀ bit < argument.sig.size,
    vpiStrongDrive ≤ (argument.strength bit).s0 ∨
      vpiStrongDrive ≤ (argument.strength bit).s1

theorem Loaded.size
    {val : Bytes}
    (loaded : argument.Loaded val) :
    argument.sig.size = val.length := by
  obtain ⟨words, isPut, _⟩ := loaded.put
  by_contra differs
  rw [setHandleToValue, if_neg differs] at isPut
  cases isPut

theorem Loaded.readyChar
    {text : Text}
    (loaded : argument.Loaded (textBytes text))
    (inside : bit < argument.sig.size) :
    argument.readyChar bit = bitChar (text.reverse.getD bit .zero) := by
  have isLength : argument.sig.size = text.length := by
    rw [loaded.size, textBytes, List.length_map]
  have sampled : vectorBit argument.sig.words bit =
      text.reverse.getD bit .zero := by
    obtain ⟨words, isPut, kept⟩ := loaded.put
    rw [setHandleToValue, if_pos loaded.size] at isPut
    obtain rfl := Option.some.inj isPut
    rw [vectorBit_eq, kept bit inside, ← vectorBit_eq,
      vectorBit_wordsOf text (isLength ▸ inside)]
  have notWeak : ¬ ((argument.strength bit).s0 < vpiStrongDrive ∧
      (argument.strength bit).s1 < vpiStrongDrive) := by
    have strong := loaded.strong bit inside
    omega
  have asSlot : argument.readyChar bit =
      bitChar (Pci.VpiSlot.readyBit false (text.reverse.getD bit .zero)
        (vectorBit argument.drv.words bit)) := by
    apply readyChar_eq_readyBit
    · rw [sampled, if_neg (fun pulled => Bool.false_ne_true pulled.2)]
    · rintro (notZ | isPullup)
      · exact ⟨fun weak => absurd weak notWeak, fun isZ => absurd isZ notZ⟩
      · cases isPullup
  rw [asSlot, loaded.released bit inside, Pci.readyBit_released]

/-- The text of a loaded register is the text that it was loaded with. -/
theorem Loaded.sigString
    {text : Text}
    (loaded : argument.Loaded (textBytes text)) :
    argument.sigString = textBytes text := by
  have isLength : argument.sig.size = text.length := by
    rw [loaded.size, textBytes, List.length_map]
  have chars : (List.range argument.sig.size).map argument.readyChar =
      text.reverse.map bitChar := by
    apply List.ext_getElem
    · simp [isLength]
    · intro bit inside _
      rw [List.length_map, List.length_range] at inside
      have inText : bit < text.reverse.length := by
        rwa [List.length_reverse, ← isLength]
      rw [List.getElem_map, List.getElem_range, loaded.readyChar inside,
        List.getElem_map, List.getD_eq_getElem _ _ inText]
  rw [ReadyArgument.sigString, List.map_reverse, chars, List.map_reverse,
    List.reverse_reverse, textBytes]

theorem length_sigString (argument : ReadyArgument) :
    argument.sigString.length = argument.sig.size := by
  simp [ReadyArgument.sigString]

end ReadyArgument

/-! ## Lines and their lengths -/

/-- The length of a line with some names and widths. -/
def lineLength (heading : Bytes) (sigs : List (Bytes × Nat)) : Nat :=
  heading.length + (sigs.map fun sig => sig.1.length + sig.2 + 2).sum + 1

/-- A READY that `message` can hold. -/
def ReadyFits
    (now : BitVec 64)
    (scale : Int)
    (sigs : List (Bytes × Nat)) : Prop :=
  lineLength (readyHeading now scale) sigs ≤ maxMessage

/-- An UNTIL that `buf` can hold. -/
def UntilFits
    (mant : BitVec 64)
    (exp : Int)
    (sigs : List (Bytes × Nat)) : Prop :=
  lineLength (untilHeading mant exp) sigs ≤ untilBuffer

theorem length_tokenBytes (name value : Bytes) :
    (tokenBytes name value).length = name.length + value.length + 2 := by
  simp only [tokenBytes, List.length_cons, List.length_append]
  omega

theorem length_textBytes (text : Text) :
    (textBytes text).length = text.length :=
  List.length_map bitChar

theorem length_readyTokens (arguments : List ReadyArgument) :
    (readyTokens arguments).length =
      ((arguments.map fun argument => (argument.name, argument.sig.size)).map
        fun sig => sig.1.length + sig.2 + 2).sum := by
  simp only [readyTokens, List.length_flatMap, length_tokenBytes,
    ReadyArgument.length_sigString, List.map_map, Function.comp_def]

theorem length_untilTokens (sigs : List (Bytes × Vector4)) :
    (untilTokens sigs).length =
      ((sigs.map fun sig => (sig.1, sig.2.length)).map
        fun sig => sig.1.length + sig.2 + 2).sum := by
  simp only [untilTokens, List.length_flatMap, length_tokenBytes,
    length_textBytes, vectorText, List.length_reverse, List.map_map,
    Function.comp_def]

theorem simbusReadyCalltf_eq_some_iff
    {now : BitVec 64}
    {scale : Int}
    {arguments : List ReadyArgument}
    (sizes : ∀ argument ∈ arguments, argument.drv.size = argument.sig.size)
    (line : Bytes) :
    simbusReadyCalltf now scale arguments = some line ↔
      ReadyFits now scale
          (arguments.map fun argument => (argument.name, argument.sig.size)) ∧
        line = readyHeading now scale ++ readyTokens arguments ++ [newline] := by
  have isLength : (readyHeading now scale ++ readyTokens arguments ++
      [newline]).length = lineLength (readyHeading now scale)
        (arguments.map fun argument => (argument.name, argument.sig.size)) := by
    rw [lineLength, List.length_append, List.length_append, length_readyTokens]
    rfl
  simp only [simbusReadyCalltf, if_pos sizes, isLength, ReadyFits,
    Nat.add_le_add_iff_right]
  split
  · rename_i fits
    rw [Option.some.injEq]
    exact ⟨fun same => ⟨fits, same.symm⟩, fun same => same.2.symm⟩
  · rename_i overruns
    exact ⟨nofun, fun same => absurd same.1 overruns⟩

theorem busReady_eq_some_iff
    {mant : BitVec 64}
    {exp : Int}
    {sigs : List (Bytes × Vector4)}
    (line : Bytes) :
    busReady mant exp sigs = some line ↔
      UntilFits mant exp (sigs.map fun sig => (sig.1, sig.2.length)) ∧
        line = untilHeading mant exp ++ untilTokens sigs ++ [newline] := by
  have isLength : (untilHeading mant exp ++ untilTokens sigs ++
      [newline]).length = lineLength (untilHeading mant exp)
        (sigs.map fun sig => (sig.1, sig.2.length)) := by
    rw [lineLength, List.length_append, List.length_append, length_untilTokens]
    rfl
  simp only [busReady, isLength, UntilFits]
  split
  · rename_i fits
    rw [Option.some.injEq]
    exact ⟨fun same => ⟨fits, same.symm⟩, fun same => same.2.symm⟩
  · rename_i overruns
    exact ⟨nofun, fun same => absurd same.1 overruns⟩

/-! ## The parser of the server -/

/-- A token of a name and the text of some values. -/
theorem parseToken_textBytes
    {name : Bytes}
    (isName : equals ∉ name)
    (text : Text) :
    parseToken (name ++ equals :: textBytes text) = some (name, text) := by
  have notEquals : ∀ byte ∈ name, decide (byte ≠ equals) = true := by
    intro byte member
    rw [decide_eq_true_eq]
    rintro rfl
    exact isName member
  have hasEquals : equals ∈ name ++ equals :: textBytes text :=
    List.mem_append_right _ List.mem_cons_self
  rw [parseToken, if_pos hasEquals, List.dropWhile_append_of_pos notEquals,
    List.takeWhile_append_of_pos notEquals,
    List.dropWhile_cons_of_neg (by simp), List.takeWhile_cons_of_neg (by simp),
    List.append_nil, List.drop_one, List.tail_cons, bitStates_textBytes]
  rfl

/-- The name of a token is what stands before the first `=`. -/
theorem parseToken_name
    {word : Bytes}
    {token : Bytes × Text}
    (parsed : parseToken word = some token) :
    token.1 = word.takeWhile (· ≠ equals) := by
  unfold parseToken at parsed
  split at parsed
  · rw [Option.map_eq_some_iff] at parsed
    obtain ⟨text, _, rfl⟩ := parsed
    rfl
  · cases parsed

theorem parseTokens_cons
    {word : Bytes}
    {words : List Bytes}
    {token : Bytes × Text}
    {tokens : Tokens Bytes}
    (parsed : parseToken word = some token)
    (parsedLater : parseTokens words = some tokens) :
    parseTokens (word :: words) = some (token :: tokens) := by
  rw [parseTokens, parsed, parsedLater]
  rfl

/-- Names that do not occur among some words do not occur in their tokens. -/
theorem parseTokens_unnamed
    {name : Bytes}
    {words : List Bytes}
    (isTokens : ∀ word ∈ words, TokenText word)
    (unnamed : ∀ word ∈ words, word.takeWhile (· ≠ equals) ≠ name) :
    ∃ tokens, parseTokens words = some tokens ∧
      ∀ token ∈ tokens, token.1 ≠ name := by
  induction words with
  | nil =>
      exact ⟨[], rfl, List.forall_mem_nil _⟩
  | cons word words inductionHypothesis =>
      obtain ⟨isToken, areTokens⟩ := List.forall_mem_cons.mp isTokens
      obtain ⟨notNamed, areUnnamed⟩ := List.forall_mem_cons.mp unnamed
      obtain ⟨tokens, parsedLater, notNamedLater⟩ :=
        inductionHypothesis areTokens areUnnamed
      obtain ⟨token, parsed⟩ :=
        Option.isSome_iff_exists.mp ((parseToken_isSome_iff word).mpr isToken)
      refine ⟨token :: tokens, parseTokens_cons parsed parsedLater, ?_⟩
      exact List.forall_mem_cons.mpr
        ⟨parseToken_name parsed ▸ notNamed, notNamedLater⟩

/-- Tokens with other names do not change a signal. -/
theorem recordAll_unnamed
    {name : Bytes}
    {tokens : Tokens Bytes}
    (signals : SignalMap Bytes)
    (unnamed : ∀ token ∈ tokens, token.1 ≠ name) :
    signals.recordAll tokens name = signals name := by
  induction tokens generalizing signals with
  | nil =>
      rfl
  | cons token tokens inductionHypothesis =>
      obtain ⟨notNamed, others⟩ := List.forall_mem_cons.mp unnamed
      exact (inductionHypothesis (signals.record token) others).trans
        (Function.update_of_ne (Ne.symm notNamed) _ _)

/-- What a READY reports for the last token of a name. -/
theorem parseTokens_record
    {name : Bytes}
    {text : Text}
    {wordsBefore wordsAfter : List Bytes}
    (isName : equals ∉ name)
    (isTokens : ∀ word ∈ wordsBefore ++ wordsAfter, TokenText word)
    (unnamed : ∀ word ∈ wordsAfter, word.takeWhile (· ≠ equals) ≠ name) :
    ∃ tokens,
      parseTokens (wordsBefore ++ (name ++ equals :: textBytes text) ::
        wordsAfter) = some tokens ∧
      ∀ signals : SignalMap Bytes,
        signals.recordAll tokens name = text.reverse := by
  obtain ⟨areBefore, areAfter⟩ := List.forall_mem_append.mp isTokens
  induction wordsBefore with
  | nil =>
      obtain ⟨tokens, parsed, notNamed⟩ := parseTokens_unnamed areAfter unnamed
      refine ⟨(name, text) :: tokens,
        parseTokens_cons (parseToken_textBytes isName text) parsed, ?_⟩
      intro signals
      exact (recordAll_unnamed (signals.record (name, text)) notNamed).trans
        (Function.update_self _ _ _)
  | cons word words inductionHypothesis =>
      obtain ⟨isToken, areTokens⟩ := List.forall_mem_cons.mp areBefore
      obtain ⟨tokens, parsed, records⟩ :=
        inductionHypothesis (List.forall_mem_append.mpr ⟨areTokens, areAfter⟩)
          areTokens
      obtain ⟨token, parsedFirst⟩ :=
        Option.isSome_iff_exists.mp ((parseToken_isSome_iff word).mpr isToken)
      exact ⟨token :: tokens, parseTokens_cons parsedFirst parsed,
        fun signals => records (signals.record token)⟩

/-- The server has the bits of a text, the lowest one first. -/
theorem readyPlug_record
    {command time name : Bytes}
    {text : Text}
    {wordsBefore wordsAfter : List Bytes}
    (plug : Command.BusDevicePlug)
    (isTime : TimeText time)
    (isName : equals ∉ name)
    (isTokens : ∀ word ∈ wordsBefore ++ wordsAfter, TokenText word)
    (unnamed : ∀ word ∈ wordsAfter, word.takeWhile (· ≠ equals) ≠ name) :
    ∃ reported,
      readyPlug (command :: time :: (wordsBefore ++
        (name ++ equals :: textBytes text) :: wordsAfter)) plug =
          some reported ∧
      reported.clientSignals name = text.reverse := by
  obtain ⟨tokens, parsed, records⟩ :=
    @parseTokens_record name text wordsBefore wordsAfter isName isTokens unnamed
  obtain ⟨parsedTime, isParsed⟩ :=
    Option.isSome_iff_exists.mp ((parseTime_isSome_iff time).mpr isTime)
  let reported : Command.BusDevicePlug :=
    { plug with
      readyTime := parsedTime.1
      readyScale := parsedTime.2
      clientSignals := plug.clientSignals.recordAll tokens
      readyFlag := true }
  refine ⟨reported, ?_, records plug.clientSignals⟩
  rw [readyPlug, isParsed, parsed]
  rfl

/-! ## There and back -/

/--
A text that is loaded into a register is in the READY again, and a text in a
READY is in the UNTIL again, if and only if both lines fit into their buffers.
-/
theorem text_roundTrip_iff
    {val : Bytes}
    {now : BitVec 64}
    {scale : Int}
    {argument : ReadyArgument}
    {before after : List ReadyArgument}
    {command time : Bytes}
    {wordsBefore wordsAfter : List Bytes}
    {plug : Command.BusDevicePlug}
    {mant : BitVec 64}
    {exp : Int}
    {sigsBefore sigsAfter : List (Bytes × Vector4)}
    (valued : ∀ byte ∈ val, byte ∈ stateBytes)
    (loaded : argument.Loaded val)
    (sizes : ∀ other ∈ before ++ argument :: after,
      other.drv.size = other.sig.size)
    (isTime : TimeText time)
    (isName : equals ∉ argument.name)
    (isTokens : ∀ word ∈ wordsBefore ++ wordsAfter, TokenText word)
    (unnamed : ∀ word ∈ wordsAfter,
      word.takeWhile (· ≠ equals) ≠ argument.name) :
    simbusReadyCalltf now scale (before ++ argument :: after) =
        some (readyHeading now scale ++ (readyTokens before ++
          tokenBytes argument.name val ++ readyTokens after) ++ [newline]) ∧
      (∃ reported,
        readyPlug (command :: time :: (wordsBefore ++
          (argument.name ++ equals :: val) :: wordsAfter)) plug =
            some reported ∧
        busReady mant exp (sigsBefore ++
          (argument.name, reported.clientSignals argument.name) :: sigsAfter) =
            some (untilHeading mant exp ++ (untilTokens sigsBefore ++
              tokenBytes argument.name val ++ untilTokens sigsAfter) ++
                [newline])) ↔
    ReadyFits now scale
        ((before ++ argument :: after).map fun other =>
          (other.name, other.sig.size)) ∧
      UntilFits mant exp
        (sigsBefore.map (fun sig => (sig.1, sig.2.length)) ++
          (argument.name, val.length) ::
            sigsAfter.map fun sig => (sig.1, sig.2.length)) := by
  obtain ⟨text, rfl⟩ := exists_textBytes valued
  obtain ⟨reported, parsed, bits⟩ :=
    @readyPlug_record command time argument.name text wordsBefore wordsAfter
      plug isTime isName isTokens unnamed
  have readyText : readyTokens (before ++ argument :: after) =
      readyTokens before ++ tokenBytes argument.name (textBytes text) ++
        readyTokens after := by
    rw [readyTokens, List.flatMap_append, List.flatMap_cons, loaded.sigString,
      List.append_assoc]
    rfl
  have untilText : untilTokens (sigsBefore ++ (argument.name, text.reverse) ::
      sigsAfter) = untilTokens sigsBefore ++
        tokenBytes argument.name (textBytes text) ++ untilTokens sigsAfter := by
    rw [untilTokens, List.flatMap_append, List.flatMap_cons, List.append_assoc,
      vectorText, List.reverse_reverse]
    rfl
  have widths : (sigsBefore ++ (argument.name, text.reverse) ::
      sigsAfter).map (fun sig => (sig.1, sig.2.length)) =
        sigsBefore.map (fun sig => (sig.1, sig.2.length)) ++
          (argument.name, (textBytes text).length) ::
            sigsAfter.map fun sig => (sig.1, sig.2.length) := by
    rw [List.map_append, List.map_cons, List.length_reverse,
      length_textBytes]
  rw [simbusReadyCalltf_eq_some_iff sizes, readyText, ← widths]
  constructor
  · rintro ⟨⟨readyFits, _⟩, again, parsedAgain, written⟩
    obtain rfl := Option.some.inj (parsed.symm.trans parsedAgain)
    rw [bits, busReady_eq_some_iff] at written
    exact ⟨readyFits, written.1⟩
  · rintro ⟨readyFits, untilFits⟩
    refine ⟨⟨readyFits, rfl⟩, reported, parsed, ?_⟩
    rw [bits, busReady_eq_some_iff, untilText]
    exact ⟨untilFits, rfl⟩

/-! ## Two registers -/

/-- A strongly driven register that holds a text, without other drivers. -/
def drivenRegister (name val : Bytes) : ReadyArgument where
  name := name
  sig := { size := val.length, words := wordsOf val }
  strength := fun _ => { s0 := vpiStrongDrive, s1 := vpiStrongDrive }
  drv :=
    { size := val.length
      words := fun _ => { aval := 0, bval := BitVec.allOnes 32 } }

theorem drivenRegister_loaded (name val : Bytes) :
    (drivenRegister name val).Loaded val where
  put := ⟨wordsOf val, if_pos rfl, fun _ _ => rfl⟩
  released := by
    intro bit _
    have inside : bit % 32 < 32 := Nat.mod_lt _ (by decide)
    have isSet : (BitVec.allOnes 32).getLsbD (bit % 32) = true := by
      rw [BitVec.getLsbD_allOnes, decide_eq_true inside]
    have isClear : (0 : BitVec 32).getLsbD (bit % 32) = false :=
      BitVec.getLsbD_zero
    have bits : bitsAt (drivenRegister name val).drv.words bit =
        (false, true) :=
      Prod.ext isClear isSet
    rw [vectorBit_eq, bits]
  strong := fun _ _ => .inl (Nat.le_refl _)

/-- A word with one letter for a name. -/
def letterA : Bytes := [97]

/-- The text `10xz`. -/
def fourValues : Bytes := [49, 48, 120, 122]

/-- It comes back at time 0. -/
theorem fourValues_roundTrip :
    simbusReadyCalltf 0 0 [drivenRegister letterA fourValues] =
        some (readyHeading 0 0 ++ ([] ++ tokenBytes letterA fourValues ++ []) ++
          [newline]) ∧
      ∃ reported,
        readyPlug [readyWord, timeBytes 0 0, letterA ++ equals :: fourValues]
            (oneDevice.deviceMap letterA) = some reported ∧
        busReady 0 0 [(letterA, reported.clientSignals letterA)] =
          some (untilHeading 0 0 ++ ([] ++ tokenBytes letterA fourValues ++
            []) ++ [newline]) := by
  have isTime : TimeText (timeBytes 0 0) := by
    rw [← parseTime_isSome_iff]
    decide +kernel
  have heading : (readyHeading 0 0).length = 9 := by
    rw [readyHeading, shortestTime]
    decide +kernel
  have valued : ∀ byte ∈ fourValues, byte ∈ stateBytes := by
    simp [fourValues, stateBytes]
  have sizes : ∀ other ∈ [] ++ [drivenRegister letterA fourValues],
      other.drv.size = other.sig.size := by
    simp [drivenRegister]
  have isName : equals ∉ letterA := by
    decide
  refine (@text_roundTrip_iff fourValues 0 0 (drivenRegister letterA fourValues)
    [] [] readyWord (timeBytes 0 0) [] [] (oneDevice.deviceMap letterA) 0 0
    [] [] valued (drivenRegister_loaded letterA fourValues) sizes isTime isName
    (List.forall_mem_nil _) (List.forall_mem_nil _)).mpr ⟨?_, ?_⟩
  · rw [ReadyFits, lineLength, heading]
    decide
  · rw [UntilFits]
    decide +kernel

/-- A text of 4096 ones. -/
def wideOnes : Bytes := List.replicate 4096 49

/-- The READY of a register with 4096 ones overruns its buffer. -/
theorem wideOnes_overrun :
    (drivenRegister letterA wideOnes).Loaded wideOnes ∧
      ∀ line, simbusReadyCalltf 0 0 [drivenRegister letterA wideOnes] ≠
        some line := by
  refine ⟨drivenRegister_loaded letterA wideOnes, ?_⟩
  intro line built
  have sizes : ∀ argument ∈ [drivenRegister letterA wideOnes],
      argument.drv.size = argument.sig.size := by
    simp [drivenRegister]
  rw [simbusReadyCalltf_eq_some_iff sizes] at built
  have fits := built.1
  simp only [ReadyFits, lineLength, drivenRegister, wideOnes, List.map_cons,
    List.map_nil, List.sum_cons, List.sum_nil, List.length_replicate,
    maxMessage] at fits
  omega

end Simbus.Vpi
