import Simbus.Pci.Blend
import Simbus.Pci.Grant

/-!
# Verilog clients and the feedback of their own drives

A Verilog slot resolves its own drive with the register loaded from the last
UNTIL, and `$simbus_ready` subtracts that register from the net again.  The
server subtracts in the other direction.  One round of both is `vpiRound`, and
its runs with constant own drives are characterised exactly.
-/

namespace Simbus.Pci

open FourValued PciProtocol

/-! ## One client -/

/-- A PCI slot in Verilog: what the design drives, and the optional pullups. -/
structure VpiSlot where
  reqN : Logic4
  intN : Fin 4 → Logic4
  own : BiSignals
  includeBusPullups : Bool

namespace VpiSlot

/-- Strong value of the net of a slot, given the register the server drives. -/
def net
    (slot : VpiSlot)
    (driver : BiSignals)
    (bit : BiBit) : Logic4 :=
  resolve (slot.own.get bit) (driver.get bit)

/--
What `simbus_ready_calltf` reports for one bit: `strong` is the strong value of
the net and `reference` is the register that the server drives.
-/
def readyBit
    (pullup : Bool)
    (strong reference : Logic4) : Logic4 :=
  let sampled := if strong = .z ∧ pullup = true then .one else strong
  if reference = sampled then
    .z
  else if sampled = .z then
    .z
  else if sampled = .x then
    .x
  else if strong = .z then
    -- Only a pullup drives the net, which is weaker than a strong drive.
    .z
  else
    sampled

/-- The READY message of a slot. -/
def ready
    (slot : VpiSlot)
    (driver : BiSignals) : ClientSignals where
  resetN := none
  reqN := some (readyBit false slot.reqN .z)
  intN := fun line => some (readyBit false (slot.intN line) .z)
  bi := BiSignals.ofBits fun bit =>
    readyBit slot.includeBusPullups (slot.net driver bit) (driver.get bit)

end VpiSlot

/-! ## Rounds -/

variable {n : Nat}

/-- All slots report, and the server answers with the blended signals. -/
def vpiRound
    (bus : PciBus n)
    (slots : Fin n → VpiSlot)
    (proto : PciProtocol n) : PciProtocol n :=
  { proto with
    clientSignals := fun dev =>
      (slots dev).ready (proto.sendSignals dev).bi }.blendBiSignals bus.ident

/-- The server and the slots after a number of READY/UNTIL rounds. -/
def vpiRun
    (bus : PciBus n)
    (slots : Fin n → VpiSlot)
    (reported : Fin n → ClientSignals) : Nat → PciProtocol n
  | 0 => runInit bus reported
  | round + 1 => vpiRound bus slots (vpiRun bus slots reported round)

/-- What the slots truly drive on one bit. -/
def ownDrives
    (slots : Fin n → VpiSlot)
    (bit : BiBit) : List Logic4 :=
  (List.finRange n).map fun dev => (slots dev).own.get bit

/-- The value the server resolves in a round. -/
def vpiResolved
    (bus : PciBus n)
    (slots : Fin n → VpiSlot)
    (reported : Fin n → ClientSignals)
    (round : Nat)
    (bit : BiBit) : Logic4 :=
  (blendedBus (vpiRun bus slots reported (round + 1)).clientSignals).get bit

/-- Some slot drives 0 and some slot drives 1. -/
def Contention (drives : List Logic4) : Prop :=
  Logic4.zero ∈ drives ∧ Logic4.one ∈ drives

section OneBit

variable {bus : PciBus n}
variable {slots : Fin n → VpiSlot}
variable {reported : Fin n → ClientSignals}
variable {bit : BiBit}

theorem vpiResolved_eq
    (round : Nat) :
    vpiResolved bus slots reported round bit =
      resolveAll ((List.finRange n).map fun dev =>
        VpiSlot.readyBit (slots dev).includeBusPullups
          (resolve ((slots dev).own.get bit)
            (((vpiRun bus slots reported round).sendSignals dev).bi.get bit))
          (((vpiRun bus slots reported round).sendSignals dev).bi.get bit)) := by
  rw [vpiResolved, blendedBus_get]
  simp [drivesOn, vpiRun, vpiRound, blendBiSignals, VpiSlot.ready, VpiSlot.net]

theorem vpiRun_driver_zero
    (dev : Fin n) :
    ((vpiRun bus slots reported 0).sendSignals dev).bi.get bit = .z := by
  simp [vpiRun, runInit, initSend]

theorem vpiRun_driver_succ
    (round : Nat)
    (dev : Fin n) :
    ((vpiRun bus slots reported (round + 1)).sendSignals dev).bi.get bit =
      subtractFeedback (vpiResolved bus slots reported round bit)
        (VpiSlot.readyBit (slots dev).includeBusPullups
          (resolve ((slots dev).own.get bit)
            (((vpiRun bus slots reported round).sendSignals dev).bi.get bit))
          (((vpiRun bus slots reported round).sendSignals dev).bi.get
            bit)) := by
  simp [vpiResolved, vpiRun, vpiRound, blendBiSignals, sentTo,
    VpiSlot.ready, VpiSlot.net]

/-! ## One bit of one client -/

/-- With the register released a slot reports exactly its own drive. -/
theorem readyBit_released
    (pullup : Bool)
    (own : Logic4) :
    VpiSlot.readyBit pullup own .z = own := by
  cases pullup <;> cases own <;> rfl

/--
With the register at the value a settled server sends, a slot reports its own
drive, except that against an `x` of others its 0 or 1 is subtracted too.
-/
theorem readyBit_settled
    {own wire : Logic4}
    (pullup : Bool)
    (absorbed : resolve own wire = wire) :
    VpiSlot.readyBit pullup
        (resolve own (subtractFeedback wire own))
        (subtractFeedback wire own) =
      if wire = .x ∧ own ≠ .x then .z else own := by
  revert absorbed
  cases pullup <;> cases own <;> cases wire <;> decide

/-- The server answers that report with the same register value again. -/
theorem subtractFeedback_settled
    {own wire : Logic4}
    (absorbed : resolve own wire = wire) :
    subtractFeedback wire (if wire = .x ∧ own ≠ .x then .z else own) =
      subtractFeedback wire own := by
  revert absorbed
  cases own <;> cases wire <;> decide

/-! ## Runs that settle -/

theorem mem_ownDrives
    (slots : Fin n → VpiSlot)
    (bit : BiBit)
    (dev : Fin n) :
    (slots dev).own.get bit ∈ ownDrives slots bit :=
  List.mem_map_of_mem (List.mem_finRange dev)

theorem own_absorbed
    (slots : Fin n → VpiSlot)
    (bit : BiBit)
    (dev : Fin n) :
    resolve ((slots dev).own.get bit) (resolveAll (ownDrives slots bit)) =
      resolveAll (ownDrives slots bit) :=
  resolve_member_resolveAll (mem_ownDrives slots bit dev)

/-- A round that starts with all registers released resolves the own drives. -/
theorem vpiResolved_of_released
    {round : Nat}
    (released : ∀ dev,
      ((vpiRun bus slots reported round).sendSignals dev).bi.get bit = .z) :
    vpiResolved bus slots reported round bit =
      resolveAll (ownDrives slots bit) := by
  rw [vpiResolved_eq]
  simp [released, readyBit_released, ownDrives]

/-- All registers hold what a settled server sends. -/
def DriversSettled
    (slots : Fin n → VpiSlot)
    (bit : BiBit)
    (proto : PciProtocol n) : Prop :=
  ∀ dev,
    (proto.sendSignals dev).bi.get bit =
      subtractFeedback (resolveAll (ownDrives slots bit))
        ((slots dev).own.get bit)

/-- After a round with released registers the registers are settled. -/
theorem driversSettled_of_released
    {round : Nat}
    (released : ∀ dev,
      ((vpiRun bus slots reported round).sendSignals dev).bi.get bit = .z) :
    DriversSettled slots bit (vpiRun bus slots reported (round + 1)) := by
  intro dev
  rw [vpiRun_driver_succ, vpiResolved_of_released released, released,
    resolve_z_right, readyBit_released]

/-- The reports of settled clients. -/
theorem vpiResolved_of_settled
    {round : Nat}
    (settled :
      DriversSettled slots bit (vpiRun bus slots reported round)) :
    vpiResolved bus slots reported round bit =
      resolveAll ((List.finRange n).map fun dev =>
        if resolveAll (ownDrives slots bit) = .x ∧
            (slots dev).own.get bit ≠ .x then
          .z
        else
          (slots dev).own.get bit) := by
  rw [vpiResolved_eq]
  congr 1
  refine List.map_congr_left fun dev _ => ?_
  rw [settled dev, readyBit_settled _ (own_absorbed slots bit dev)]

/-- Without contention, or with a true `x`, settled clients keep the wire. -/
theorem vpiResolved_settled
    {round : Nat}
    (settled :
      DriversSettled slots bit (vpiRun bus slots reported round))
    (steady :
      resolveAll (ownDrives slots bit) ≠ .x ∨
        Logic4.x ∈ ownDrives slots bit) :
    vpiResolved bus slots reported round bit =
      resolveAll (ownDrives slots bit) := by
  rw [vpiResolved_of_settled settled]
  by_cases unknown : resolveAll (ownDrives slots bit) = .x
  · have driven : Logic4.x ∈ ownDrives slots bit := by
      simpa [unknown] using steady
    obtain ⟨dev, _, drivesX⟩ := List.mem_map.mp driven
    rw [unknown]
    have member :
        Logic4.x ∈ (List.finRange n).map fun dev =>
          if Logic4.x = .x ∧ (slots dev).own.get bit ≠ .x then
            Logic4.z
          else
            (slots dev).own.get bit :=
      List.mem_map.mpr ⟨dev, List.mem_finRange dev, by simp [drivesX]⟩
    apply resolveAll_of_agree member
    intro drive driveMember
    obtain ⟨other, _, rfl⟩ := List.mem_map.mp driveMember
    by_cases otherX : (slots other).own.get bit = .x <;> simp [otherX]
  · simp only [unknown, false_and, ↓reduceIte]
    rfl

/-- The registers of settled clients do not change in a steady round. -/
theorem driversSettled_step
    {round : Nat}
    (settled :
      DriversSettled slots bit (vpiRun bus slots reported round))
    (steady :
      resolveAll (ownDrives slots bit) ≠ .x ∨
        Logic4.x ∈ ownDrives slots bit) :
    DriversSettled slots bit (vpiRun bus slots reported (round + 1)) := by
  intro dev
  have absorbed := own_absorbed slots bit dev
  rw [vpiRun_driver_succ, vpiResolved_settled settled steady, settled dev,
    readyBit_settled _ absorbed, subtractFeedback_settled absorbed]

theorem driversSettled_run
    (steady :
      resolveAll (ownDrives slots bit) ≠ .x ∨
        Logic4.x ∈ ownDrives slots bit)
    (round : Nat) :
    DriversSettled slots bit (vpiRun bus slots reported (round + 1)) := by
  induction round with
  | zero =>
      exact driversSettled_of_released vpiRun_driver_zero
  | succ round inductionHypothesis =>
      exact driversSettled_step inductionHypothesis steady

/-! ## Runs that oscillate -/

/-- An `x` that no slot drives is subtracted by every slot. -/
theorem vpiResolved_of_contention
    {round : Nat}
    (settled :
      DriversSettled slots bit (vpiRun bus slots reported round))
    (unknown : resolveAll (ownDrives slots bit) = .x)
    (nobody : Logic4.x ∉ ownDrives slots bit) :
    vpiResolved bus slots reported round bit = .z := by
  rw [vpiResolved_of_settled settled]
  apply resolveAll_of_released
  intro drive driveMember
  obtain ⟨dev, _, rfl⟩ := List.mem_map.mp driveMember
  have notX : (slots dev).own.get bit ≠ .x := fun drivesX =>
    nobody (drivesX ▸ mem_ownDrives slots bit dev)
  simp [unknown, notX]

/-- Under contention the registers are released in every second round. -/
theorem vpiRun_released
    (unknown : resolveAll (ownDrives slots bit) = .x)
    (nobody : Logic4.x ∉ ownDrives slots bit)
    (pair : Nat)
    (dev : Fin n) :
    ((vpiRun bus slots reported (2 * pair)).sendSignals dev).bi.get bit =
      .z := by
  induction pair generalizing dev with
  | zero =>
      exact vpiRun_driver_zero dev
  | succ pair inductionHypothesis =>
      have settled :
          DriversSettled slots bit
            (vpiRun bus slots reported (2 * pair + 1)) :=
        driversSettled_of_released inductionHypothesis
      have notX : (slots dev).own.get bit ≠ .x := fun drivesX =>
        nobody (drivesX ▸ mem_ownDrives slots bit dev)
      rw [show 2 * (pair + 1) = (2 * pair + 1) + 1 by omega,
        vpiRun_driver_succ,
        vpiResolved_of_contention settled unknown nobody, settled dev,
        readyBit_settled _ (own_absorbed slots bit dev)]
      simp [unknown, notX, subtractFeedback]

/-- So in every second round the server resolves Z instead of X. -/
theorem vpiResolved_oscillates
    (unknown : resolveAll (ownDrives slots bit) = .x)
    (nobody : Logic4.x ∉ ownDrives slots bit)
    (pair : Nat) :
    vpiResolved bus slots reported (2 * pair + 1) bit = .z :=
  vpiResolved_of_contention
    (driversSettled_of_released (vpiRun_released unknown nobody pair))
    unknown nobody

/-- The own drives resolve to `x` only if somebody drives it or two contend. -/
theorem resolveAll_eq_x_iff
    {drives : List Logic4} :
    resolveAll drives = .x ↔ Contention drives ∨ Logic4.x ∈ drives := by
  constructor
  · intro unknown
    have resolution := isResolution_resolveAll drives
    rw [unknown] at resolution
    cases resolution with
    | agreed _ member _ =>
        exact .inr member
    | @conflict first second firstMember secondMember
        firstDrives secondDrives differ =>
        unfold Contention
        cases first <;> cases second <;> simp_all
  · rintro (⟨zeroMember, oneMember⟩ | driven)
    · exact (IsResolution.conflict zeroMember oneMember (by decide)
        (by decide) (by decide)).eq_resolveAll.symm
    · have absorbed := resolve_member_resolveAll driven
      revert absorbed
      cases resolveAll drives <;> decide

end OneBit

/--
The feedback loop settles on the resolution of the true drives if and only if
no 0 contends with a 1 on the bit, or some slot drives X itself.
-/
theorem vpiRun_settles_iff
    (bus : PciBus n)
    (slots : Fin n → VpiSlot)
    (reported : Fin n → ClientSignals)
    (bit : BiBit) :
    (∃ first, ∀ round, first ≤ round →
        IsResolution (ownDrives slots bit)
          (vpiResolved bus slots reported round bit)) ↔
      ¬ Contention (ownDrives slots bit) ∨
        Logic4.x ∈ ownDrives slots bit := by
  constructor
  · rintro ⟨first, settles⟩
    by_contra oscillates
    rw [not_or, not_not] at oscillates
    obtain ⟨contention, nobody⟩ := oscillates
    have unknown := resolveAll_eq_x_iff.mpr (.inl contention)
    have resolution := settles (2 * first + 1) (by omega)
    rw [vpiResolved_oscillates unknown nobody] at resolution
    have released := resolution.eq_resolveAll
    rw [unknown] at released
    cases released
  · intro condition
    have steady :
        resolveAll (ownDrives slots bit) ≠ .x ∨
          Logic4.x ∈ ownDrives slots bit := by
      rw [Ne, resolveAll_eq_x_iff]
      tauto
    refine ⟨1, fun round later => ?_⟩
    obtain ⟨before, rfl⟩ : ∃ before, round = before + 1 :=
      ⟨round - 1, by omega⟩
    rw [vpiResolved_settled (driversSettled_run steady before) steady]
    exact isResolution_resolveAll _

/-- Two slots that contend on FRAME#: one drives 0, the other drives 1. -/
def contendingSlots (dev : Fin 2) : VpiSlot where
  reqN := .one
  intN := fun _ => .one
  own := BiSignals.ofBits fun bit =>
    if bit = .frameN then if dev = 0 then .zero else .one else .z
  includeBusPullups := true

/-- The server sees X and Z in turn and never settles. -/
theorem contendingSlots_oscillate :
    ¬ ∃ first, ∀ round, first ≤ round →
      IsResolution (ownDrives contendingSlots .frameN)
        (vpiResolved pairBus contendingSlots pairRequests.reported round
          .frameN) := by
  rintro ⟨first, settles⟩
  have drives : ownDrives contendingSlots .frameN = [.zero, .one] := by
    decide
  have unknown : resolveAll (ownDrives contendingSlots .frameN) = .x := by
    rw [drives]
    rfl
  have nobody : Logic4.x ∉ ownDrives contendingSlots .frameN := by
    rw [drives]
    decide
  have resolution := settles (2 * first + 1) (by omega)
  rw [vpiResolved_oscillates unknown nobody] at resolution
  have released := resolution.eq_resolveAll
  rw [unknown] at released
  cases released

end Simbus.Pci
