import Mathlib

/-!
# Changes of separate parts of a state

A state has a part for every index.  Parts that are changed one after the other,
each by a step of its own that may fail, are changed independently.
-/

namespace Pointwise

section

variable {Index : Type} [DecidableEq Index]
variable {Part : Index → Type}

/-- Change the parts of some indices one after the other. -/
def changeAll
    (change : ∀ index, Part index → Option (Part index)) :
    List Index → (∀ index, Part index) → Option (∀ index, Part index)
  | [], state => some state
  | index :: rest, state =>
      (change index (state index)).bind fun part =>
        changeAll change rest (Function.update state index part)

variable {change : ∀ index, Part index → Option (Part index)}
variable {indices : List Index}
variable {state state' : ∀ index, Part index}

/-- The parts of distinct indices are changed each on its own. -/
theorem changeAll_eq_some_iff
    (distinct : indices.Nodup) :
    changeAll change indices state = some state' ↔
      ∀ index, if index ∈ indices then
        change index (state index) = some (state' index)
      else
        state' index = state index := by
  induction indices generalizing state with
  | nil =>
      rw [changeAll, Option.some.injEq]
      simp only [List.not_mem_nil, if_false]
      exact ⟨fun same _ => same ▸ rfl, fun same => (funext same).symm⟩
  | cons first rest inductionHypothesis =>
      rw [List.nodup_cons] at distinct
      rw [changeAll, Option.bind_eq_some_iff]
      constructor
      · rintro ⟨part, changed, later⟩ index
        have here := (inductionHypothesis distinct.2).mp later index
        by_cases isFirst : index = first
        · subst isFirst
          rw [if_neg distinct.1, Function.update_self] at here
          rw [if_pos List.mem_cons_self, changed, here]
        · rw [Function.update_of_ne isFirst] at here
          simp only [List.mem_cons, isFirst, false_or]
          exact here
      · intro each
        have changed := each first
        rw [if_pos List.mem_cons_self] at changed
        refine ⟨state' first, changed, (inductionHypothesis distinct.2).mpr ?_⟩
        intro index
        by_cases isFirst : index = first
        · subst isFirst
          rw [if_neg distinct.1, Function.update_self]
        · have here := each index
          simp only [List.mem_cons, isFirst, false_or] at here
          rw [Function.update_of_ne isFirst]
          exact here

/-- If every part can be changed, all of them can. -/
theorem exists_changeAll
    (distinct : indices.Nodup)
    (each : ∀ index ∈ indices, ∃ part, change index (state index) = some part) :
    ∃ state', changeAll change indices state = some state' := by
  refine ⟨fun index =>
    if index ∈ indices then
      (change index (state index)).getD (state index)
    else
      state index, ?_⟩
  rw [changeAll_eq_some_iff distinct]
  intro index
  split
  · rename_i isIn
    obtain ⟨part, changed⟩ := each index isIn
    rw [changed]
    rfl
  · rfl

end

end Pointwise
