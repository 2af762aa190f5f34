import Mathlib

/-!
# Cyclic search order

The distance between two places of a ring, and the bounded bypass that follows
when a token only ever moves closer to a waiting place.
-/

namespace Cyclic

variable {size : Nat}

/-- Steps upward around the ring from `start` to `target`. -/
def distance (start target : Fin size) : Nat :=
  (target - start).val

theorem distance_lt
    (start target : Fin size) :
    distance start target < size :=
  (target - start).isLt

/-- The distance without modular arithmetic. -/
theorem distance_eq
    (start target : Fin size) :
    distance start target =
      if start.val ≤ target.val then
        target.val - start.val
      else
        size + target.val - start.val := by
  have startBound := start.isLt
  have targetBound := target.isLt
  simp only [distance, Fin.sub_def]
  split
  · rw [show size - start.val + target.val =
      (target.val - start.val) + size by omega, Nat.add_mod_right]
    exact Nat.mod_eq_of_lt (by omega)
  · rw [Nat.mod_eq_of_lt (by omega)]
    omega

/-- A move that does not pass the target brings the token closer to it. -/
theorem distance_lt_of_move
    {start next target : Fin size}
    (moves : next ≠ start)
    (notPast : distance start next ≤ distance start target) :
    distance next target < distance start target := by
  have apart : next.val ≠ start.val := fun same => moves (Fin.ext same)
  have startBound := start.isLt
  have nextBound := next.isLt
  have targetBound := target.isLt
  rw [distance_eq start next, distance_eq start target] at notPast
  rw [distance_eq next target, distance_eq start target]
  split_ifs at notPast ⊢ <;> omega

/-- The first step away from the start shortens every longer distance by one. -/
theorem distance_succ
    {start target : Fin (size + 1)}
    (apart : target ≠ start) :
    distance start target = distance (start + 1) target + 1 := by
  have apartVal : target.val ≠ start.val := fun same => apart (Fin.ext same)
  have startBound := start.isLt
  have targetBound := target.isLt
  have next : (start + 1).val =
      if start.val = size then 0 else start.val + 1 := by
    rw [Fin.val_add_one]
    simp [Fin.ext_iff]
  rw [distance_eq, distance_eq, next]
  split_ifs <;> omega

/-! ## Bounded bypass -/

section Bypass

variable {Holder : Type}
variable {holder : Nat → Option Holder}
variable {rank : Holder → Nat}
variable {first last : Nat}

/-- In a window the token stays or moves to a holder of smaller rank. -/
def Approaches
    (holder : Nat → Option Holder)
    (rank : Holder → Nat)
    (first last : Nat) : Prop :=
  ∀ time, first ≤ time → time < last →
    ∀ held, holder time = some held →
      ∃ next, holder (time + 1) = some next ∧
        (next = held ∨ rank next < rank held)

/-- Over the whole window the token stays or ends up at a smaller rank. -/
theorem Approaches.later
    (approaches : Approaches holder rank first last)
    {early late : Nat}
    {held : Holder}
    (start : holder early = some held)
    (inside : first ≤ early)
    (ordered : early ≤ late)
    (bounded : late ≤ last) :
    ∃ next, holder late = some next ∧
      (next = held ∨ rank next < rank held) := by
  induction late, ordered using Nat.le_induction with
  | base =>
      exact ⟨held, start, .inl rfl⟩
  | succ late ordered inductionHypothesis =>
      obtain ⟨middle, heldMiddle, middleRank⟩ :=
        inductionHypothesis (by omega)
      obtain ⟨next, heldNext, same | closer⟩ :=
        approaches late (by omega) (by omega) middle heldMiddle
      · exact ⟨next, heldNext, same ▸ middleRank⟩
      · refine ⟨next, heldNext, .inr ?_⟩
        rcases middleRank with stayed | middleCloser
        · exact stayed ▸ closer
        · exact Nat.lt_trans closer middleCloser

/-- Who has lost the token in the window does not get it back. -/
theorem Approaches.no_return
    (approaches : Approaches holder rank first last)
    {early middle late : Nat}
    {held : Holder}
    (start : holder early = some held)
    (inside : first ≤ early)
    (beforeLoss : early ≤ middle)
    (lost : holder middle ≠ some held)
    (afterLoss : middle ≤ late)
    (bounded : late ≤ last) :
    holder late ≠ some held := by
  obtain ⟨next, heldNext, same | closer⟩ :=
    approaches.later start inside beforeLoss (by omega)
  · exact (lost (same ▸ heldNext)).elim
  · obtain ⟨final, heldFinal, finalRank⟩ :=
      approaches.later heldNext (by omega) afterLoss bounded
    intro regained
    rw [heldFinal, Option.some.injEq] at regained
    subst regained
    rcases finalRank with same | finalCloser
    · subst same
      exact Nat.lt_irrefl _ closer
    · exact Nat.lt_asymm closer finalCloser

end Bypass

end Cyclic
