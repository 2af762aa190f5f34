import Simbus.Pci.ConfigAccess

/-!
# The memory device

`ramdev.cc`: a configuration header with two memory regions, the memory behind
the first and the registers behind the second.  The device is a target with
callbacks; configuration accesses reach its header in slot 0.
-/

namespace Simbus.Pci

open FourValued Clocked PciProtocol

/-- The callbacks of the device. -/
inductive RamHandle where
  | configRead32
  | configRecv32
  | bar0Need32
  | bar0Recv32
  | bar2Need32
  | bar2Recv32
  deriving Repr, DecidableEq

/-- The static variables of `ramdev.cc`. -/
structure RamDev where
  configMem : Fin 16 → BitVec 32
  memorySpace : Fin 0x4000 → BitVec 32
  bar2Mem : Fin 0x800 → BitVec 32
  bar0Map : SimbusTranslation RamHandle
  bar2Map : SimbusTranslation RamHandle

/-- A client whose user is the device. -/
abbrev RamDevice : Type :=
  Device RamDev RamHandle

/-- `DEVICE_ID`. -/
def deviceId : BitVec 32 := 0xffc112c5

/-- `bar0_mask`. -/
def bar0Mask : BitVec 32 := 0xffff0000

/-- `BAR0_FLAGS`. -/
def bar0Flags : BitVec 32 := 0x0000000c

/-- `BAR2_MASK`. -/
def bar2Mask : BitVec 32 := 0xffffe000

/-- `BAR2_FLAGS`. -/
def bar2Flags : BitVec 32 := 0x0000000c

/-- The defaults that `main` prefills the header with. -/
def prefilledConfig : Fin 16 → BitVec 32
  | 0 => deviceId
  | 2 => 0x05000000
  | 4 => 0x00000000 ||| bar0Flags
  | 6 => 0x00000000 ||| bar2Flags
  | _ => 0x00000000

/-- The device before the first access. -/
def RamDev.init : RamDev where
  configMem := prefilledConfig
  memorySpace := fun _ => 0
  bar2Mem := fun _ => 0
  bar0Map := .unused
  bar2Map := .unused

/-! ## Byte enables -/

/-- `be_mask`: the bytes that are written. -/
def beMask (ben : BitVec 32) : BitVec 32 :=
  let mask := 0xffffffff
  let mask := if ben &&& 1 ≠ 0 then mask &&& 0xffffff00 else mask
  let mask := if ben &&& 2 ≠ 0 then mask &&& 0xffff00ff else mask
  let mask := if ben &&& 4 ≠ 0 then mask &&& 0xff00ffff else mask
  if ben &&& 8 ≠ 0 then mask &&& 0x00ffffff else mask

/-- `(val&be_mask) | (old&~be_mask)`. -/
def mergeBytes (val ben old : BitVec 32) : BitVec 32 :=
  (val &&& beMask ben) ||| (old &&& ~~~beMask ben)

/-- Only the low byte enables count. -/
theorem beMask_low (ben : BitVec 32) :
    beMask (ben &&& 0xf) = beMask ben := by
  have bit : ∀ lane : BitVec 32, 0xf &&& lane = lane →
      ben &&& 0xf &&& lane = ben &&& lane := by
    intro lane isLane
    rw [BitVec.and_assoc, isLane]
  rw [beMask, beMask, bit 1 rfl, bit 2 rfl, bit 4 rfl, bit 8 rfl]

/-- The offset of an address into a region with some mask. -/
def regionOffset (mask : BitVec 32) (addr : BitVec 64) : BitVec 32 :=
  addr.setWidth 32 &&& ~~~mask

theorem regionOffset_le
    (mask : BitVec 32)
    (addr : BitVec 64) :
    (regionOffset mask addr).toNat ≤ (~~~mask).toNat := by
  rw [regionOffset, BitVec.toNat_and]
  exact Nat.and_le_right

/-- The word of the memory at an address. -/
def bar0Word (addr : BitVec 64) : Fin 0x4000 :=
  ⟨(regionOffset bar0Mask addr).toNat / 4, by
    have bounded := regionOffset_le bar0Mask addr
    have limit : (~~~bar0Mask).toNat = 0xffff := by decide
    omega⟩

/-- The register at an address. -/
def bar2Word (addr : BitVec 64) : Fin 0x800 :=
  ⟨(regionOffset bar2Mask addr).toNat / 4, by
    have bounded := regionOffset_le bar2Mask addr
    have limit : (~~~bar2Mask).toNat = 0x1fff := by decide
    omega⟩

/-- `bar0_need32`. -/
def bar0Need32 (addr : BitVec 64) (ram : RamDev) : BitVec 32 :=
  ram.memorySpace (bar0Word addr)

/-- `bar0_recv32`. -/
def bar0Recv32
    (addr : BitVec 64)
    (val ben : BitVec 32)
    (device : RamDevice) : RamDevice :=
  let word := bar0Word addr
  let memory := device.user.memorySpace
  { device with
    user :=
      { device.user with
        memorySpace :=
          Function.update memory word (mergeBytes val ben (memory word)) } }

/-- `bar2_need32`. -/
def bar2Need32 (addr : BitVec 64) (ram : RamDev) : BitVec 32 :=
  ram.bar2Mem (bar2Word addr)

/-- What is kept of a write to a register. -/
def bar2Masked (word : Fin 0x800) (val : BitVec 32) : BitVec 32 :=
  if word.val = 0x1004 / 4 ∨ word.val = 0x1010 / 4 then
    -- The transfer count and the memory offset: `%= ~3`.
    val % 0xfffffffc
  else
    val

/-- `bar2_recv32`; the bytes that are not written come from the memory. -/
def bar2Recv32
    (addr : BitVec 64)
    (val ben : BitVec 32)
    (device : RamDevice) : RamDevice :=
  let word := bar2Word addr
  let other : Fin 0x4000 := ⟨word.val, by omega⟩
  let merged := mergeBytes val ben (device.user.memorySpace other)
  { device with
    user :=
      { device.user with
        bar2Mem :=
          Function.update device.user.bar2Mem word (bar2Masked word merged) }
    -- `simbus_pci_wait_break`.
    breakFlag := device.breakFlag || decide (word.val = 0x1000 / 4) }

/-! ## The configuration header -/

/-- `waddr`, where it is a word of the header. -/
def configWord (addr : BitVec 64) : Option (Fin 16) :=
  if inside : addr.toNat / 4 < 16 then
    some ⟨addr.toNat / 4, inside⟩
  else
    none

/-- `config_read32`. -/
def configRead32 (addr : BitVec 64) (ram : RamDev) : BitVec 32 :=
  match configWord addr with
  | some word => ram.configMem word
  | none => 0xffffffff

/-- The header after a write to one of its words. -/
def configStore
    (word : Fin 16)
    (val ben : BitVec 32)
    (mem : Fin 16 → BitVec 32) : Fin 16 → BitVec 32 :=
  match word with
  | 1 =>
      -- StatusCommand.
      Function.update mem 1
        ((val &&& 0x0006 &&& beMask ben) |||
          (mem 1 &&& 0xffff &&& ~~~beMask ben))
  | 4 =>
      Function.update mem 4
        (mergeBytes val ben (mem 4) &&& bar0Mask ||| bar0Flags)
  | 6 =>
      Function.update mem 6
        (mergeBytes val ben (mem 6) &&& bar2Mask ||| bar2Flags)
  | 5 => Function.update mem 5 (mergeBytes val ben (mem 5))
  | 7 => Function.update mem 7 (mergeBytes val ben (mem 7))
  | _ => mem

/-- A base address register pair and a mask as a region. -/
def regionOf
    (low high mask : BitVec 32)
    (need32 recv32 : RamHandle)
    (old : SimbusTranslation RamHandle) : SimbusTranslation RamHandle :=
  { old with
    need32 := some need32
    recv32 := some recv32
    base := high.setWidth 64 <<< 32 ||| low.setWidth 64
    mask := 0xffffffff00000000 ||| mask.setWidth 64 }

/-- `simbus_pci_mem_xlate` with a translation. -/
def Device.memXlate
    {User Handle : Type}
    (idx : Nat)
    (drv : SimbusTranslation Handle)
    (device : Device User Handle) : Device User Handle :=
  { device with
    memTarget := fun region =>
      if region.val = idx then drv else device.memTarget region }

/-- The end of `config_recv32`: set up both regions. -/
def mapRegions (device : RamDevice) : RamDevice :=
  let mem := device.user.configMem
  -- Without memory enable the maps stay as they are.
  let user :=
    if mem 1 &&& 0x0002 ≠ 0 then
      { device.user with
        bar0Map :=
          regionOf (mem 4) (mem 5) bar0Mask .bar0Need32 .bar0Recv32
            device.user.bar0Map
        bar2Map :=
          regionOf (mem 6) (mem 7) bar2Mask .bar2Need32 .bar2Recv32
            device.user.bar2Map }
    else
      device.user
  (({ device with user := user } : RamDevice).memXlate 0 user.bar0Map).memXlate
    2 user.bar2Map

/-- `config_recv32`. -/
def configRecv32
    (addr : BitVec 64)
    (val ben : BitVec 32)
    (device : RamDevice) : RamDevice :=
  match configWord addr with
  | none => device
  | some word =>
      mapRegions
        { device with
          user :=
            { device.user with
              configMem :=
                configStore word val ben device.user.configMem } }

/-- The device after `main` has registered its configuration callbacks. -/
def ramdevDevice : RamDevice where
  user := RamDev.init
  breakFlag := false
  retryRate := 0
  memTarget := fun _ => .unused
  configNeed32 := some .configRead32
  configRecv32 := some .configRecv32

/-! ## Which accesses reach the header -/

theorem mapRegions_configMem (device : RamDevice) :
    (mapRegions device).user.configMem = device.user.configMem := by
  simp only [mapRegions, Device.memXlate]
  split <;> rfl

section

variable {n : Nat}
variable {User₁ Handle₁ Value₁ User₂ Handle₂ : Type}
variable {User Handle : Fin n → Type}

section

variable {host dev : Fin n}
variable {slot : Fin 16}
variable {dwAddr : BitVec 16}
variable {val ben : BitVec 32}
variable {callbacks₁ : Callbacks User₁ Handle₁}
variable {requestBus₂ : Call RamDev RamHandle Unit}
variable {callbacks : ∀ other, Callbacks (User other) (Handle other)}
variable {requestBus : ∀ other, Call (User other) (Handle other) Unit}
variable {stack clks₂ : Nat}
variable {clks : Fin n → Nat}
variable {pci granted : SimbusPci User₁ Handle₁}
variable {request : List Reply}
variable {target : SimbusPci RamDev RamHandle}
variable {others : ∀ other, SimbusPci (User other) (Handle other)}
variable {mask₂ : BitVec 64}
variable {masks : Fin n → BitVec 64}
variable {reads writes : List (Exchange n)}

end

end

/-! ## Two clients on a bus -/

section

variable {User₁ Handle₁ Value₁ User₂ Handle₂ Value₂ : Type}

variable {master : Behavior (SimbusPci User₁ Handle₁) Reply Value₁}
variable {target : Behavior (SimbusPci User₂ Handle₂) Reply Value₂}

end

end Simbus.Pci
