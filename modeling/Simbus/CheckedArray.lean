import Mathlib

/-!
# Arrays with checked accesses

An array of a fixed size whose accesses fail outside of it, cell by cell and
for blocks of cells.  A block is accessible exactly when it is empty or lies
inside.
-/

namespace CheckedArray

variable {α : Type}
variable {size : Nat}

/-! ## Blocks of cells -/

/-- The cells of a block lie inside. -/
def Inside (size first count : Nat) : Prop :=
  count = 0 ∨ first + count ≤ size

instance (size first count : Nat) : Decidable (Inside size first count) :=
  inferInstanceAs (Decidable (_ ∨ _))

theorem inside_succ
    {first count : Nat} :
    Inside size first (count + 1) ↔
      first < size ∧ Inside size (first + 1) count := by
  unfold Inside
  omega

theorem inside_iff_le
    {first count : Nat}
    (someCells : count ≠ 0) :
    Inside size first count ↔ first + count ≤ size := by
  simp [Inside, someCells]

theorem inside_of_le
    {first count : Nat}
    (inside : first + count ≤ size) :
    Inside size first count :=
  Or.inr inside

/-- Store a value in a cell. -/
def put?
    (cells : Vector α size)
    (place : Nat)
    (value : α) : Option (Vector α size) :=
  if inside : place < size then some (cells.set place value) else none

/-- Read the cells of a block one after another. -/
def block?
    (cells : Vector α size)
    (first : Nat) : Nat → Option (List α)
  | 0 => some []
  | count + 1 => do
      let value ← cells[first]?
      (block? cells (first + 1) count).map (value :: ·)

/-- Store values in the cells of a block one after another. -/
def putBlock?
    (cells : Vector α size)
    (first : Nat) : List α → Option (Vector α size)
  | [] => some cells
  | value :: rest => do
      let cells ← put? cells first value
      putBlock? cells (first + 1) rest

/-! ## When they succeed -/

theorem put?_of_lt
    {cells : Vector α size}
    {place : Nat}
    (inside : place < size)
    (value : α) :
    put? cells place value = some (cells.set place value) :=
  dif_pos inside

theorem put?_eq_none
    {cells : Vector α size}
    {place : Nat}
    (outside : ¬ place < size)
    (value : α) :
    put? cells place value = none :=
  dif_neg outside

theorem block?_isSome
    (cells : Vector α size)
    (first count : Nat) :
    (block? cells first count).isSome ↔ Inside size first count := by
  induction count generalizing first with
  | zero =>
      simp [block?, Inside]
  | succ count inductionHypothesis =>
      rw [inside_succ, ← inductionHypothesis (first + 1)]
      by_cases inside : first < size
      · simp [block?, inside]
      · simp [block?, inside]

theorem putBlock?_isSome
    (cells : Vector α size)
    (first : Nat)
    (values : List α) :
    (putBlock? cells first values).isSome ↔
      Inside size first values.length := by
  induction values generalizing cells first with
  | nil =>
      simp [putBlock?, Inside]
  | cons value rest inductionHypothesis =>
      rw [List.length_cons, inside_succ]
      by_cases inside : first < size
      · simp only [putBlock?, put?_of_lt inside, Option.bind_eq_bind,
          Option.bind_some, inductionHypothesis, inside, true_and]
      · simp [putBlock?, put?_eq_none inside, inside]

/-! ## What they access -/

theorem block?_length
    {cells : Vector α size}
    {first count : Nat}
    {values : List α}
    (reads : block? cells first count = some values) :
    values.length = count := by
  induction count generalizing first values with
  | zero =>
      cases reads
      rfl
  | succ count inductionHypothesis =>
      simp only [block?, Option.bind_eq_bind, Option.bind_eq_some_iff,
        Option.map_eq_some_iff] at reads
      obtain ⟨value, -, rest, readsRest, isValues⟩ := reads
      cases isValues
      rw [List.length_cons, inductionHypothesis readsRest]

/-- The values of a block are those of its cells. -/
theorem block?_getElem
    {cells : Vector α size}
    {first count : Nat}
    {values : List α}
    (reads : block? cells first count = some values)
    {index : Nat}
    (bounded : index < count) :
    values[index]? = cells[first + index]? := by
  induction count generalizing first values index with
  | zero =>
      omega
  | succ count inductionHypothesis =>
      simp only [block?, Option.bind_eq_bind, Option.bind_eq_some_iff,
        Option.map_eq_some_iff] at reads
      obtain ⟨value, isValue, rest, readsRest, isValues⟩ := reads
      cases isValues
      cases index with
      | zero =>
          simpa using isValue.symm
      | succ index =>
          rw [List.getElem?_cons_succ,
            inductionHypothesis readsRest (by omega)]
          congr 1
          omega

end CheckedArray
