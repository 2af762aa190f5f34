import Simbus.Libsimbus.Memdev
import Mathlib

/-!
# What a compare of the memory device tells

The command word is also the place of the result, and the device leaves it alone
when it refuses a command.
-/

namespace Simbus.Libsimbus.Memdev

open CheckedArray Vpi.Memory

/-! ## The count of differences -/

section Command

variable (host : Host)
variable {map : MemoryMap}

end Command

/-! ## The arguments -/

section Arguments

variable (host : Host)
variable {map after : MemoryMap}

end Arguments

/-! ## The result -/

section Result

variable (host : Host)
variable {map : MemoryMap}
variable {off0 off1 : BitVec 64}
variable {cnt0 : BitVec 32}

end Result

/-! ## Exactly when a compare can be trusted -/

/-- A zeroed memory whose register of the second offset is past it. -/
def zeroed
    {size : Nat}
    (someBytes : 0 < size)
    (mappable : size < 2 ^ 31) : MemoryMap where
  size := size
  base := Vector.replicate size 0
  controlRegs := (Vector.replicate controlCount 0).set 3 (-1) (by decide)
  someBytes := someBytes
  mappable := mappable

end Simbus.Libsimbus.Memdev
