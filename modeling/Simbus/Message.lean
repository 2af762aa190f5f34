import Simbus.Axi4.Signals
import Simbus.SimTime
import Mathlib

/-!
# Messages between clients and server

READY and UNTIL lines: a time and the values of named signals, from the highest
bit down.  The server keeps what the clients report as vectors with the lowest
bit first.
-/

namespace Simbus

open FourValued Axi4

/-- A `valarray` of signal values, the lowest bit first. -/
abbrev Vector4 : Type := List Logic4

/-- The `<name>=<value>` tokens of a line. -/
abbrev Tokens (Name : Type) : Type := List (Name × Text)

/-- A READY or UNTIL line. -/
structure Message where
  keyword : String
  time : SimTime
  tokens : Tokens String

/-- The number of characters of a time. -/
def SimTime.textLength (time : SimTime) : Nat :=
  (Nat.repr time.mant.toNat).length + 1 + (Int.repr time.exp).length

/-- A time of the server: nothing but picoseconds is ever added to 0. -/
def SimTime.OfServer (time : SimTime) : Prop :=
  time.exp = 0 ∨ time.exp = -12

theorem SimTime.OfServer.zero : SimTime.zero.OfServer :=
  .inl rfl

theorem SimTime.OfServer.add
    {time : SimTime}
    (ofServer : time.OfServer)
    (duration : BitVec 64) :
    (time.add ⟨duration, -12⟩).OfServer := by
  right
  change min time.exp (-12) = -12
  rcases ofServer with isExp | isExp <;> rw [isExp] <;> rfl

/-- The time of the server never has more than 24 characters. -/
theorem SimTime.OfServer.textLength_le
    {time : SimTime}
    (ofServer : time.OfServer) :
    time.textLength ≤ 24 := by
  have small : time.mant.toNat < 10 ^ 20 :=
    Nat.lt_of_lt_of_le time.mant.isLt (by decide)
  have mantLength : (Nat.repr time.mant.toNat).length ≤ 20 :=
    Nat.repr_length _ _ (by decide) small
  have expLength : (Int.repr time.exp).length ≤ 3 := by
    rcases ofServer with isExp | isExp <;> rw [isExp] <;> decide
  rw [SimTime.textLength]
  omega

/-- The number of characters of a token with the space before it. -/
def tokenLength (token : String × Text) : Nat :=
  1 + token.1.length + 1 + token.2.length

/-- The number of characters of a line with its newline. -/
def Message.length (message : Message) : Nat :=
  message.keyword.length + 1 + message.time.textLength +
    (message.tokens.map tokenLength).sum + 1

/-- A buffer of 4096 characters holds so many of a line and a NUL. -/
def lineSize : Nat := 4095

/-- A line that the buffers on its way can hold. -/
def Message.Fits (message : Message) : Prop :=
  message.length ≤ lineSize

instance (message : Message) : Decidable message.Fits :=
  inferInstanceAs (Decidable (_ ≤ _))

/-! ## Signals of a client -/

/-- `client_signals` of a plug; a signal never named has no bits. -/
abbrev SignalMap (Name : Type) : Type := Name → Vector4

namespace SignalMap

variable {Name : Type}
variable [DecidableEq Name]

/-- No signal has been reported. -/
def empty : SignalMap Name := fun _ => []

/-- One `<name>=<value>` token of a READY. -/
def record (signals : SignalMap Name) (token : Name × Text) : SignalMap Name :=
  Function.update signals token.1 token.2.reverse

/-- All tokens of a READY, one after the other. -/
def recordAll
    (signals : SignalMap Name)
    (tokens : Tokens Name) : SignalMap Name :=
  tokens.foldl record signals

end SignalMap

/-- The text of a vector. -/
def vectorText (vector : Vector4) : Text :=
  vector.reverse

/-! ## The trace -/

/-- The buffer in which `set_trace_` writes the bits of a vector and a NUL. -/
def traceSize : Nat := 1025

/-- The assertion of `set_trace_` on a vector of some width. -/
def Traced (width : Nat) : Prop :=
  width < traceSize

instance (width : Nat) : Decidable (Traced width) :=
  inferInstanceAs (Decidable (_ < _))

/-- A width that can be traced fits into an `unsigned`. -/
theorem Traced.small {width : Nat} (traced : Traced width) :
    width < 2 ^ 32 :=
  Nat.lt_trans traced (by decide)

end Simbus
