import Simbus.Pci.Protocol
import Mathlib

/-!
# Blending the bidirectional signals

The server's loop over the devices resolves each bit like one wire, and the
value sent to a device is what the device must add to its own drive to see
that wire.
-/

namespace Simbus.Pci

open FourValued

namespace PciProtocol

variable {n : Nat}

/-! ## The loop resolves a wire -/

theorem blendBits_eq_resolve
    (a b : Logic4) :
    blendBits a b = resolve a b := by
  cases a <;> cases b <;> rfl

theorem blendDrives_eq_resolveAll
    (drives : List Logic4) :
    blendDrives drives = resolveAll drives := by
  have sameStep : blendBits = resolve :=
    funext fun a => funext fun b => blendBits_eq_resolve a b
  rw [blendDrives, resolveAll, sameStep]

/-- What the devices drive on one bit, in the order of the device map. -/
def drivesOn
    (clientSignals : Fin n → ClientSignals)
    (bit : BiBit) : List Logic4 :=
  (List.finRange n).map fun dev => (clientSignals dev).bi.get bit

theorem mem_drivesOn
    (clientSignals : Fin n → ClientSignals)
    (bit : BiBit)
    (dev : Fin n) :
    (clientSignals dev).bi.get bit ∈ drivesOn clientSignals bit :=
  List.mem_map_of_mem (List.mem_finRange dev)

theorem blendedBus_get
    (clientSignals : Fin n → ClientSignals)
    (bit : BiBit) :
    (blendedBus clientSignals).get bit =
      resolveAll (drivesOn clientSignals bit) := by
  rw [blendedBus, BiSignals.get_ofBits, blendDrives_eq_resolveAll]
  rfl

/-- Numbering the devices in another order permutes the drives. -/
theorem drivesOn_perm
    (clientSignals : Fin n → ClientSignals)
    (order : Equiv.Perm (Fin n))
    (bit : BiBit) :
    (drivesOn (fun dev => clientSignals (order dev)) bit).Perm
      (drivesOn clientSignals bit) := by
  simpa [drivesOn, Function.comp_def] using
    order.map_finRange_perm.map fun dev => (clientSignals dev).bi.get bit

/-! ## A device gets the rest of the wire -/

/-- What is sent to a driver of a wire completes its drive to the wire value. -/
theorem blendBits_subtractFeedback
    {wire own : Logic4}
    (absorbed : resolve own wire = wire) :
    blendBits own (subtractFeedback wire own) = wire := by
  revert absorbed
  cases own <;> cases wire <;> decide

/--
Each bit of the blended bus is the resolution of what the devices drive on it,
in whatever order they are visited, and every device that adds its own drive
to what it is sent sees that value.
-/
theorem blendBiSignals_resolves
    (ident : Fin n → Fin 16)
    (proto : PciProtocol n)
    (bit : BiBit) :
    let resolved := (blendedBus proto.clientSignals).get bit
    IsResolution (drivesOn proto.clientSignals bit) resolved ∧
      (∀ order : Equiv.Perm (Fin n),
        (blendedBus fun dev => proto.clientSignals (order dev)).get bit =
          resolved) ∧
      ∀ dev,
        blendBits ((proto.clientSignals dev).bi.get bit)
          (((proto.blendBiSignals ident).sendSignals dev).bi.get bit) =
            resolved := by
  intro resolved
  have resolvedShape :
      resolved = resolveAll (drivesOn proto.clientSignals bit) :=
    blendedBus_get proto.clientSignals bit
  refine ⟨?_, ?_, ?_⟩
  · rw [resolvedShape]
    exact isResolution_resolveAll _
  · intro order
    rw [resolvedShape, blendedBus_get]
    exact resolveAll_perm (drivesOn_perm proto.clientSignals order bit)
  · intro dev
    have sent :
        ((proto.blendBiSignals ident).sendSignals dev).bi.get bit =
          subtractFeedback resolved
            ((proto.clientSignals dev).bi.get bit) := by
      simp [blendBiSignals, sentTo, resolved]
    rw [sent]
    apply blendBits_subtractFeedback
    rw [resolvedShape]
    exact resolve_member_resolveAll
      (mem_drivesOn proto.clientSignals bit dev)

end PciProtocol

end Simbus.Pci
