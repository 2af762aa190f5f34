import Mathlib

/-!
# Values with the times from which they hold

A timeline lists values in the order in which they were given.  At some time the
last value counts that was given up to then, so repeating a value at a later time
changes nothing.
-/

set_option autoImplicit false

namespace Timeline

variable {Time Value : Type}

/-- The last value of a timeline, or a default. -/
def last (default : Value) (entries : List (Time × Value)) : Value :=
  (entries.map Prod.snd).getLastD default

variable {default : Value}
variable {entries : List (Time × Value)}

@[simp] theorem last_concat (time : Time) (value : Value) :
    last default (entries ++ [(time, value)]) = value := by
  rw [last, List.map_append]
  exact List.getLastD_concat

theorem last_append (more : List (Time × Value)) :
    last default (entries ++ more) = last (last default entries) more := by
  induction more generalizing default entries with
  | nil =>
      rw [List.append_nil]
      rfl
  | cons entry more inductionHypothesis =>
      rw [List.append_cons, inductionHypothesis, last_concat]
      exact List.getLastD_cons.symm

section

variable [LE Time]
variable [DecidableLE Time]

/-- The last value that has been given up to some time. -/
def valueAt
    (default : Value)
    (entries : List (Time × Value))
    (time : Time) : Value :=
  last default (entries.filter fun entry => decide (entry.1 ≤ time))

theorem valueAt_concat
    (given : Time)
    (value : Value)
    (time : Time) :
    valueAt default (entries ++ [(given, value)]) time =
      if given ≤ time then value else valueAt default entries time := by
  rw [valueAt, List.filter_append]
  split
  · rename_i isGiven
    have kept : [(given, value)].filter (fun entry => decide (entry.1 ≤ time)) =
        [(given, value)] :=
      List.filter_cons_of_pos (decide_eq_true isGiven)
    rw [kept, last_concat]
  · rename_i notGiven
    have dropped : [(given, value)].filter (fun entry => decide (entry.1 ≤ time)) =
        [] :=
      List.filter_cons_of_neg fun isGiven =>
        notGiven (of_decide_eq_true isGiven)
    rw [dropped, List.append_nil]
    rfl

/-- Giving a value several times at one time is giving it once. -/
theorem valueAt_replicate
    (copies : Nat)
    (given : Time)
    (value : Value)
    (time : Time) :
    valueAt default (entries ++ List.replicate (copies + 1) (given, value)) time =
      if given ≤ time then value else valueAt default entries time := by
  induction copies with
  | zero =>
      exact valueAt_concat given value time
  | succ copies inductionHypothesis =>
      rw [List.replicate_succ', ← List.append_assoc, valueAt_concat,
        inductionHypothesis]
      split <;> rfl

theorem valueAt_flatMap_replicate
    {Step : Type}
    {copies : Nat}
    (positive : 0 < copies)
    (given : Step → Time)
    (value : Step → Value)
    (steps : List Step)
    (time : Time) :
    valueAt default (steps.flatMap fun step =>
        List.replicate copies (given step, value step)) time =
      valueAt default (steps.map fun step => (given step, value step)) time := by
  obtain ⟨copies, rfl⟩ := Nat.exists_eq_succ_of_ne_zero (Nat.ne_of_gt positive)
  induction steps using List.reverseRecOn with
  | nil =>
      rfl
  | append_singleton steps step inductionHypothesis =>
      rw [List.flatMap_append, List.flatMap_singleton, valueAt_replicate,
        List.map_append, List.map_singleton, valueAt_concat, inductionHypothesis]

/-- When all values have been given the last one counts. -/
theorem valueAt_of_le
    {time : Time}
    (past : ∀ entry ∈ entries, entry.1 ≤ time) :
    valueAt default entries time = last default entries := by
  have all : entries.filter (fun entry => decide (entry.1 ≤ time)) = entries :=
    List.filter_eq_self.mpr fun entry member => decide_eq_true (past entry member)
  rw [valueAt, all]

/-- The last value can be given once more, or not at all. -/
theorem valueAt_again
    [Std.IsPreorder Time]
    {time : Time}
    (past : ∀ entry ∈ entries, entry.1 ≤ time) :
    valueAt default (entries ++ [(time, last default entries)]) =
      valueAt default entries := by
  funext other
  rw [valueAt_concat]
  split
  · rename_i isGiven
    exact (valueAt_of_le fun entry member =>
      Std.IsPreorder.le_trans _ _ _ (past entry member) isGiven).symm
  · rfl

/-- Two timelines stay alike when both get the same value. -/
theorem valueAt_concat_congr
    {value : Value}
    {given : Time}
    {others : List (Time × Value)}
    (alike : valueAt default (entries ++ [(given, value)]) =
      valueAt default others)
    (new : Value) :
    valueAt default (entries ++ [(given, new)]) =
      valueAt default (others ++ [(given, new)]) := by
  funext time
  have before := congrFun alike time
  rw [valueAt_concat] at before
  rw [valueAt_concat, valueAt_concat]
  split
  · rfl
  · rename_i notGiven
    rwa [if_neg notGiven] at before

end

end Timeline
