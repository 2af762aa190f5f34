import Simbus.BusClock
import Simbus.Message

/-!
# The point-to-point protocol of the server

`PointToPoint`: the data of the host goes to the device and that of the device
to the host.  The host always sees the clock run, and chooses what the device
sees of it.
-/

namespace Simbus.P2p

open FourValued

/-- `clock_mode_t`. -/
inductive ClockMode where
  | run
  | stop0
  | stop1
  | stopZ
  deriving Repr, DecidableEq

/-- The protocol object, with the widths of the data in either direction. -/
structure PointToPoint where
  clock : BusClock
  masterClockMode : ClockMode
  widO : Nat
  widI : Nat

namespace PointToPoint

/-- The constructor. -/
def make
    (options : ClockOptions)
    (widO widI : Nat) : Option PointToPoint :=
  (BusClock.make options).map fun clock =>
    { clock := clock
      masterClockMode := .run
      widO := widO
      widI := widI }

/--
The number that the bits of CLOCK_MODE make, of which there are at most 31: `1<<idx`
is not defined for more.
-/
def modeNumber : Vector4 → Nat
  | [] => 0
  | bit :: rest => (if bit = .one then 1 else 0) + 2 * modeNumber rest

/-- The mode that CLOCK_MODE asks for. -/
def modeOf (clockMode : Vector4) : ClockMode :=
  match modeNumber clockMode with
  | 0 => .run
  | 1 => .stop0
  | 2 => .stop1
  | 3 => .stopZ
  | _ => .run

/-- The clock that the device gets in a mode. -/
def slaveClock (mode : ClockMode) (busClk : Logic4) : Logic4 :=
  match mode with
  | .run => busClk
  | .stop0 => .zero
  | .stop1 => .one
  | .stopZ => .z

/-- The loops that copy data, where what has not been reported is Z. -/
def copyData (width : Nat) (reported : Vector4) : Vector4 :=
  (List.range width).map fun idx => reported.getD idx .z

/--
`run_run`: the protocol afterwards and the signals for host and device.  The
data is traced, and the trace has an assertion.
-/
def runRun
    (proto : PointToPoint)
    (master slave : SignalMap String) :
    Option (PointToPoint × Tokens String × Tokens String) :=
  let clock := proto.clock.advanceBusClock
  let dataO := copyData proto.widO (master "DATA_O")
  let dataI := copyData proto.widI (slave "DATA_I")
  if Traced dataO.length ∧ Traced dataI.length then
    some
      ({ proto with
          clock := clock
          masterClockMode := modeOf (master "CLOCK_MODE") },
        [("CLOCK", [clock.busClk]), ("DATA_I", vectorText dataI)],
        -- A new mode takes effect with the next step.
        [("CLOCK", [slaveClock proto.masterClockMode clock.busClk]),
          ("DATA_O", vectorText dataO)])
  else
    none

/-- The vectors of a point-to-point bus can be traced. -/
structure CanTrace (proto : PointToPoint) : Prop where
  widO : Traced proto.widO
  widI : Traced proto.widI

instance (proto : PointToPoint) : Decidable proto.CanTrace :=
  decidable_of_iff (Traced proto.widO ∧ Traced proto.widI)
    ⟨fun ⟨widO, widI⟩ => ⟨widO, widI⟩, fun ⟨widO, widI⟩ => ⟨widO, widI⟩⟩

theorem length_copyData (width : Nat) (reported : Vector4) :
    (copyData width reported).length = width := by
  rw [copyData, List.length_map, List.length_range]

/-- A step fails only in the trace. -/
theorem runRun_of_canTrace
    {proto : PointToPoint}
    (canTrace : proto.CanTrace)
    (master slave : SignalMap String) :
    proto.runRun master slave =
      some
        ({ proto with
            clock := proto.clock.advanceBusClock
            masterClockMode := modeOf (master "CLOCK_MODE") },
          [("CLOCK", [proto.clock.advanceBusClock.busClk]),
            ("DATA_I", vectorText (copyData proto.widI (slave "DATA_I")))],
          [("CLOCK", [slaveClock proto.masterClockMode
              proto.clock.advanceBusClock.busClk]),
            ("DATA_O", vectorText (copyData proto.widO (master "DATA_O")))]) := by
  rw [runRun]
  simp only [length_copyData]
  exact if_pos ⟨canTrace.widO, canTrace.widI⟩

theorem runRun_of_not_canTrace
    {proto : PointToPoint}
    (fails : ¬ proto.CanTrace)
    (master slave : SignalMap String) :
    proto.runRun master slave = none := by
  rw [runRun]
  simp only [length_copyData]
  exact if_neg fun traced => fails ⟨traced.1, traced.2⟩

end PointToPoint

end Simbus.P2p
