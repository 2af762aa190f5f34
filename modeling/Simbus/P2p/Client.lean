import Simbus.Message

/-!
# The libsimbus point-to-point client

The host has the identifier 0 and sends the clock mode and DATA_O; a device
sends DATA_I.
-/

namespace Simbus.P2p

open FourValued Axi4

/-- `struct simbus_p2p_s`. -/
structure SimbusP2p where
  ident : Nat
  busTime : SimTime
  clock : Logic4
  clockMode : Bits
  widthO : Nat
  dataO : Bits
  widthI : Nat
  dataI : Bits

namespace SimbusP2p

/-- `simbus_p2p_connect`, for the identifier that the server answers. -/
def connect (widthI widthO ident : Nat) : SimbusP2p where
  ident := ident
  busTime := .zero
  clock := .x
  clockMode := fun _ => .zero
  widthO := widthO
  dataO := fun _ => .x
  widthI := widthI
  dataI := fun _ => .x

/-- The READY of `send_ready_p2p`. -/
def ready (bus : SimbusP2p) : Message where
  keyword := "READY"
  time := bus.busTime
  tokens :=
    (if bus.ident = 0 then
      [("CLOCK_MODE", encode 2 bus.clockMode)]
    else
      []) ++
    (if bus.ident = 0 ∧ 0 < bus.widthO then
      [("DATA_O", encode bus.widthO bus.dataO)]
    else
      []) ++
    (if bus.ident ≠ 0 ∧ 0 < bus.widthI then
      [("DATA_I", encode bus.widthI bus.dataI)]
    else
      [])

end SimbusP2p

/--
The vector of a token.  The values go to the top of the array; one that is
short is padded with X from its length on, before they are written.
-/
def decodeData (width : Nat) (text : Text) (data : Bits) : Bits := fun idx =>
  if idx < width then
    if width - idx ≤ text.length then
      text.getD (width - 1 - idx) .x
    else if text.length ≤ idx then
      .x
    else
      data idx
  else
    data idx

namespace SimbusP2p

/-- One token of an UNTIL; a vector without any value fails an assertion. -/
def receive (bus : SimbusP2p) (token : String × Text) : Option SimbusP2p :=
  match token.1 with
  | "CLOCK" => some { bus with clock := decodeBit token.2 }
  | "DATA_I" =>
      if 0 < token.2.length then
        some { bus with dataI := decodeData bus.widthI token.2 bus.dataI }
      else
        none
  | "DATA_O" =>
      if 0 < token.2.length then
        some { bus with dataO := decodeData bus.widthO token.2 bus.dataO }
      else
        none
  | _ => some bus

/-- What `send_ready_p2p` makes of an UNTIL. -/
def sample (bus : SimbusP2p) (message : Message) : Option SimbusP2p :=
  message.tokens.foldlM receive { bus with busTime := message.time }

end SimbusP2p

/-- The values of a text of the right length. -/
theorem decodeData_encode
    (width : Nat)
    (bits data : Bits)
    (idx : Nat) :
    decodeData width (encode width bits) data idx =
      if idx < width then bits idx else data idx := by
  rw [decodeData, length_encode]
  split
  · rename_i inside
    have whole := decode_encode width bits data idx
    rw [decode, length_encode, if_pos inside, if_pos inside] at whole
    rw [if_pos (Nat.sub_le width idx)]
    exact whole
  · rfl

end Simbus.P2p
