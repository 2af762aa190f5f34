import Simbus.CheckedArray
import Mathlib

/-!
# Sequences made in place

A sequence whose items are made of three items before them: the one a block before,
the one behind that, and one at a fixed distance.  An array keeps a block of the
sequence and replaces it by the next block, item by item from the front.
-/

set_option autoImplicit false

namespace Recurrence

open CheckedArray

section

variable {α : Type}
variable {size offset : Nat}
variable {next : α → α → α → α}

/-! ## The sequence -/

/-- Every item behind the first block is made of three items before it. -/
def Obeys
    (size offset : Nat)
    (next : α → α → α → α)
    (items : Nat → α) : Prop :=
  ∀ place, items (place + size) =
    next (items place) (items (place + 1)) (items (place + offset))

/-- The three items come before the one that is made of them. -/
def Reaches (size offset : Nat) : Prop :=
  1 < size ∧ offset < size

instance (size offset : Nat) : Decidable (Reaches size offset) :=
  inferInstanceAs (Decidable (_ ∧ _))

/-- The sequence that goes on from the items of a first block. -/
def extend
    (reaches : Reaches size offset)
    (next : α → α → α → α)
    (first : Nat → α)
    (place : Nat) : α :=
  if place < size then
    first place
  else
    next (extend reaches next first (place - size))
      (extend reaches next first (place - size + 1))
      (extend reaches next first (place - size + offset))
termination_by place
decreasing_by
  all_goals
    obtain ⟨many, near⟩ := reaches
    omega

theorem extend_of_lt
    (reaches : Reaches size offset)
    (first : Nat → α)
    {place : Nat}
    (inside : place < size) :
    extend reaches next first place = first place := by
  rw [extend, if_pos inside]

theorem extend_obeys
    (reaches : Reaches size offset)
    (first : Nat → α) :
    Obeys size offset next (extend reaches next first) := by
  intro place
  have behind : ¬ place + size < size := Nat.not_lt.mpr (Nat.le_add_left size place)
  rw [extend, if_neg behind, Nat.add_sub_cancel]

/-- Two sequences that agree on a block agree behind it. -/
theorem Obeys.eq_of_block
    {items items' : Nat → α}
    (obeys : Obeys size offset next items)
    (obeys' : Obeys size offset next items')
    (reaches : Reaches size offset)
    {start start' : Nat}
    (block : ∀ place < size, items (start + place) = items' (start' + place))
    (place : Nat) :
    items (start + place) = items' (start' + place) := by
  induction place using Nat.strong_induction_on with
  | _ place inductionHypothesis =>
      by_cases inside : place < size
      · exact block place inside
      · obtain ⟨many, near⟩ := reaches
        obtain ⟨before, rfl⟩ : ∃ before, place = before + size :=
          ⟨place - size, by omega⟩
        have isFirst := inductionHypothesis before (by omega)
        have isSecond := inductionHypothesis (before + 1) (by omega)
        have isThird := inductionHypothesis (before + offset) (by omega)
        rw [← Nat.add_assoc, ← Nat.add_assoc, obeys, obeys', isFirst]
        rw [Nat.add_assoc, Nat.add_assoc, Nat.add_assoc, Nat.add_assoc, isSecond,
          isThird]

/-! ## The block in an array -/

variable {count : Nat}

/-- Make the next item out of three cells, in place of the first one. -/
def replace
    (next : α → α → α → α)
    (cells : Vector α count)
    (place after far : Nat) : Option (Vector α count) := do
  let first ← cells[place]?
  let second ← cells[after]?
  let third ← cells[far]?
  put? cells place (next first second third)

/-- The cells have a block of a sequence whose first items have been replaced. -/
def Keeps
    (size : Nat)
    (items : Nat → α)
    (start done : Nat)
    (cells : Vector α count) : Prop :=
  ∀ place < size, cells[place]? =
    some (items (if place < done then start + place + size else start + place))

variable {items : Nat → α}
variable {start done : Nat}
variable {cells : Vector α count}

/-- A block that has been replaced is the next block. -/
theorem Keeps.all (keeps : Keeps size items start size cells) :
    Keeps size items (start + size) 0 cells := by
  intro place inside
  rw [keeps place inside, if_pos inside, if_neg (Nat.not_lt_zero place),
    Nat.add_right_comm]

/--
One more item is replaced, whether the cells that it is made of have been replaced
before or not.
-/
theorem Keeps.replace
    (keeps : Keeps size items start done cells)
    (obeys : Obeys size offset next items)
    (reaches : Reaches size offset)
    (fits : size ≤ count)
    (more : done < size)
    {after far : Nat}
    (isAfter : after = if done + 1 < size then done + 1 else 0)
    (isFar : far = if done + offset < size then done + offset else
      done + offset - size) :
    ∃ cells', Recurrence.replace next cells done after far = some cells' ∧
      Keeps size items start (done + 1) cells' := by
  obtain ⟨many, near⟩ := reaches
  have first : cells[done]? = some (items (start + done)) := by
    rw [keeps done more, if_neg (Nat.lt_irrefl done)]
  have second : cells[after]? = some (items (start + done + 1)) := by
    by_cases isLast : done + 1 < size
    · rw [if_pos isLast] at isAfter
      rw [isAfter, keeps (done + 1) isLast, if_neg (by omega)]
      rfl
    · rw [if_neg isLast] at isAfter
      -- The item behind the last one has already been made.
      rw [isAfter, keeps 0 (by omega), if_pos (by omega)]
      congr 2
      omega
  have third : cells[far]? = some (items (start + done + offset)) := by
    by_cases isBefore : done + offset < size
    · rw [if_pos isBefore] at isFar
      rw [isFar, keeps (done + offset) isBefore, if_neg (by omega), Nat.add_assoc]
    · rw [if_neg isBefore] at isFar
      rw [isFar, keeps (done + offset - size) (by omega), if_pos (by omega)]
      congr 2
      omega
  have inside : done < count := Nat.lt_of_lt_of_le more fits
  refine ⟨cells.set done (items (start + done + size)), ?_, ?_⟩
  · rw [Recurrence.replace, first, second, third, obeys]
    exact put?_of_lt inside _
  · intro place isPlace
    have inCells : place < count := Nat.lt_of_lt_of_le isPlace fits
    by_cases same : place = done
    · subst same
      rw [Vector.getElem?_set_self, if_pos (Nat.lt_succ_self place)]
    · rw [Vector.getElem?_set_ne inside (Ne.symm same), keeps place isPlace]
      by_cases before : place < done
      · rw [if_pos before, if_pos (Nat.lt_succ_of_lt before)]
      · rw [if_neg before, if_neg (by omega)]

/-- A loop whose steps succeed and keep what holds of its state. -/
theorem foldlM_range'
    {State : Type}
    {step : State → Nat → Option State}
    {holds : Nat → State → Prop}
    {first steps : Nat}
    (goes : ∀ place state, first ≤ place → place < first + steps →
      holds place state →
        ∃ state', step state place = some state' ∧ holds (place + 1) state')
    {state : State}
    (start : holds first state) :
    ∃ state', (List.range' first steps).foldlM step state = some state' ∧
      holds (first + steps) state' := by
  induction steps generalizing first state with
  | zero =>
      exact ⟨state, rfl, start⟩
  | succ steps inductionHypothesis =>
      obtain ⟨middle, isMiddle, holdsMiddle⟩ := goes first state (Nat.le_refl first)
        (by omega) start
      obtain ⟨state', isState, holds'⟩ := inductionHypothesis
        (fun place state isPlace inside =>
          goes place state (by omega) (by omega)) holdsMiddle
      refine ⟨state', ?_, ?_⟩
      · rw [List.range'_succ, List.foldlM_cons, isMiddle]
        exact isState
      · rwa [Nat.add_right_comm] at holds'

end

end Recurrence
