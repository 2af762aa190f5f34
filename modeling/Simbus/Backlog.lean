import Mathlib

/-!
# A queue that serves one item in each slot

Items arrive in slots, any number in each, and one waiting item is served at
the end of a slot.  The queue is empty in the end exactly when no final stretch
of the slots brings more items than it has slots.
-/

namespace Backlog

/-- The items that wait after some slots. -/
def waiting : Nat → List Nat → Nat
  | backlog, [] => backlog
  | backlog, arrivals :: rest => waiting (backlog + arrivals - 1) rest

/-- In no final stretch of the slots do more items arrive than are served. -/
def Manageable (slots : List Nat) : Prop :=
  ∀ last, last <:+ slots → last.sum ≤ last.length

theorem manageable_nil : Manageable [] := by
  intro last isSuffix
  rw [List.suffix_nil.mp isSuffix]
  exact Nat.le_refl _

theorem manageable_cons
    {arrivals : Nat}
    {rest : List Nat} :
    Manageable (arrivals :: rest) ↔
      arrivals + rest.sum ≤ rest.length + 1 ∧ Manageable rest := by
  constructor
  · intro manageable
    refine ⟨?_, ?_⟩
    · simpa using manageable (arrivals :: rest) (List.suffix_refl _)
    · intro last isSuffix
      exact manageable last (isSuffix.trans (List.suffix_cons _ _))
  · rintro ⟨whole, manageable⟩ last isSuffix
    rcases List.suffix_cons_iff.mp isSuffix with rfl | later
    · simpa using whole
    · exact manageable last later

/-- The backlog of any start is worked off. -/
theorem waiting_eq_zero_iff
    {backlog : Nat}
    {slots : List Nat} :
    waiting backlog slots = 0 ↔
      backlog + slots.sum ≤ slots.length ∧ Manageable slots := by
  induction slots generalizing backlog with
  | nil =>
      simp [waiting, manageable_nil]
  | cons arrivals rest inductionHypothesis =>
      rw [waiting, inductionHypothesis, manageable_cons]
      simp only [List.sum_cons, List.length_cons]
      constructor
      · rintro ⟨enough, manageable⟩
        have restEnough := manageable rest (List.suffix_refl rest)
        exact ⟨by omega, by omega, manageable⟩
      · rintro ⟨enough, _, manageable⟩
        have restEnough := manageable rest (List.suffix_refl rest)
        exact ⟨by omega, manageable⟩

end Backlog
