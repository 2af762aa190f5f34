import Mathlib

/-!
# Reading what was written to a byte stream

A reader takes a value off the front of a stream.  It reads a value from some
bytes if it finds exactly these bytes in front of whatever follows them; the
rules below read a concatenation one part after another.
-/

set_option autoImplicit false

namespace ByteFormat

/-- Take a value off the front of a stream. -/
abbrev Reader (α : Type) : Type := List UInt8 → Option (α × List UInt8)

section

variable {α β ι : Type}

namespace Reader

/-- Read nothing. -/
def pure (value : α) : Reader α :=
  fun bytes => some (value, bytes)

/-- Read a value and then what depends on it. -/
def bind (reader : Reader α) (next : α → Reader β) : Reader β :=
  fun bytes =>
    match reader bytes with
    | none => none
    | some (value, rest) => next value rest

/-- Read a value and return another one for it. -/
def map (f : α → β) (reader : Reader α) : Reader β :=
  fun bytes => (reader bytes).map fun (value, rest) => (f value, rest)

/-- Read with each of the readers in turn. -/
def each : List (Reader α) → Reader (List α)
  | [] => pure []
  | reader :: rest =>
      reader.bind fun value => (each rest).map (value :: ·)

end Reader

/-- A reader finds a value in these bytes and stops behind them. -/
def Reads (reader : Reader α) (bytes : List UInt8) (value : α) : Prop :=
  ∀ rest, reader (bytes ++ rest) = some (value, rest)

theorem Reads.pure (value : α) : Reads (.pure value) [] value :=
  fun _ => rfl

theorem Reads.bind
    {reader : Reader α}
    {next : α → Reader β}
    {first second : List UInt8}
    {value : α}
    {result : β}
    (reads : Reads reader first value)
    (readsNext : Reads (next value) second result) :
    Reads (reader.bind next) (first ++ second) result := by
  intro rest
  rw [Reader.bind, List.append_assoc, reads]
  exact readsNext rest

theorem Reads.map
    {reader : Reader α}
    {bytes : List UInt8}
    {value : α}
    (f : α → β)
    (reads : Reads reader bytes value) :
    Reads (reader.map f) bytes (f value) := by
  intro rest
  rw [Reader.map, reads]
  rfl

/-- Items that are written one after another are read one after another. -/
theorem Reads.each
    {items : List ι}
    {reader : ι → Reader α}
    {bytes : ι → List UInt8}
    {value : ι → α}
    (reads : ∀ item ∈ items, Reads (reader item) (bytes item) (value item)) :
    Reads (.each (items.map reader)) (items.flatMap bytes)
      (items.map value) := by
  induction items with
  | nil =>
      exact .pure []
  | cons item items inductionHypothesis =>
      rw [List.forall_mem_cons] at reads
      exact reads.1.bind ((inductionHypothesis reads.2).map (value item :: ·))

end

/-! ## Numbers -/

/-- A number in some bytes, the highest first; what does not fit is cut off. -/
def bigEndian : Nat → Nat → List UInt8
  | 0, _ => []
  | width + 1, number =>
      UInt8.ofNat (number >>> (8 * width)) :: bigEndian width number

/-- Read a number of some bytes, the highest first. -/
def readNumber : Nat → Reader Nat
  | 0, bytes => some (0, bytes)
  | _ + 1, [] => none
  | width + 1, byte :: bytes =>
      (readNumber width bytes).map fun (low, rest) =>
        (byte.toNat * 256 ^ width + low, rest)

@[simp] theorem length_bigEndian (width number : Nat) :
    (bigEndian width number).length = width := by
  induction width with
  | zero =>
      rfl
  | succ width inductionHypothesis =>
      rw [bigEndian, List.length_cons, inductionHypothesis]

theorem readNumber_bigEndian (width number : Nat) :
    Reads (readNumber width) (bigEndian width number) (number % 256 ^ width) := by
  intro rest
  induction width with
  | zero =>
      simp [bigEndian, readNumber, Nat.mod_one]
  | succ width inductionHypothesis =>
      rw [bigEndian, List.cons_append, readNumber, inductionHypothesis,
        Option.map_some]
      have split : number % 256 ^ (width + 1) =
          number / 256 ^ width % 256 * 256 ^ width + number % 256 ^ width := by
        rw [Nat.pow_succ, Nat.mod_mul]
        ring
      have shifted : number >>> (8 * width) = number / 256 ^ width := by
        rw [Nat.shiftRight_eq_div_pow, Nat.pow_mul]
      rw [split, UInt8.toNat_ofNat', shifted]

/-- A number that fits is read as it was written. -/
theorem reads_number
    {width number : Nat}
    (fits : number < 256 ^ width) :
    Reads (readNumber width) (bigEndian width number) number := by
  have reads := readNumber_bigEndian width number
  rwa [Nat.mod_eq_of_lt fits] at reads

/-! ## Texts -/

/-- Bytes and a 0 behind them. -/
def zeroEnded (text : List UInt8) : List UInt8 :=
  text ++ [0]

/-- Read up to the first 0, which is passed over. -/
def readZeroEnded : Reader (List UInt8)
  | [] => none
  | byte :: bytes =>
      if byte = 0 then
        some ([], bytes)
      else
        (readZeroEnded bytes).map fun (text, rest) => (byte :: text, rest)

/-- A text without a 0 is read as it was written. -/
theorem reads_zeroEnded
    {text : List UInt8}
    (noZero : 0 ∉ text) :
    Reads readZeroEnded (zeroEnded text) text := by
  intro rest
  induction text with
  | nil =>
      rfl
  | cons byte text inductionHypothesis =>
      rw [List.mem_cons, not_or] at noZero
      have readsText := inductionHypothesis noZero.2
      rw [zeroEnded] at readsText ⊢
      rw [List.cons_append, List.cons_append, readZeroEnded,
        if_neg (Ne.symm noZero.1), readsText]
      rfl

end ByteFormat
