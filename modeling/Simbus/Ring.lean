import Mathlib

/-!
# Circular linked lists

A queue that is linked in a circle and known by its last cell, whose successor
is the first one.  Cells are named by their addresses in a heap.
-/

namespace Ring

/-- A cell with the address of its successor. -/
structure Cell (α : Type) where
  data : α
  next : Nat

/-- The cells that are allocated. -/
abbrev Heap (α : Type) := Nat → Option (Cell α)

section

variable {α : Type}
variable {heap heap' : Heap α}

/-! ## Segments -/

/-- Linked cells from an address up to, and without, another one. -/
def Segment (heap : Heap α) : Nat → List (Nat × α) → Nat → Prop
  | first, [], stop => first = stop
  | first, (cell, data) :: rest, stop =>
      first = cell ∧
        ∃ next, heap cell = some { data := data, next := next } ∧
          Segment heap next rest stop

theorem segment_append
    {first stop : Nat}
    {front back : List (Nat × α)} :
    Segment heap first (front ++ back) stop ↔
      ∃ middle, Segment heap first front middle ∧
        Segment heap middle back stop := by
  induction front generalizing first with
  | nil =>
      constructor
      · exact fun segment => ⟨first, rfl, segment⟩
      · rintro ⟨middle, rfl, segment⟩
        exact segment
  | cons item rest inductionHypothesis =>
      constructor
      · rintro ⟨start, next, isCell, segment⟩
        obtain ⟨middle, before, after⟩ := inductionHypothesis.mp segment
        exact ⟨middle, ⟨start, next, isCell, before⟩, after⟩
      · rintro ⟨middle, ⟨start, next, isCell, before⟩, after⟩
        exact ⟨start, next, isCell,
          inductionHypothesis.mpr ⟨middle, before, after⟩⟩

/-- A segment depends on its own cells only. -/
theorem Segment.frame
    {first stop : Nat}
    {items : List (Nat × α)}
    (segment : Segment heap first items stop)
    (same : ∀ cell ∈ items.map Prod.fst, heap' cell = heap cell) :
    Segment heap' first items stop := by
  induction items generalizing first with
  | nil =>
      exact segment
  | cons item rest inductionHypothesis =>
      obtain ⟨start, next, isCell, segment⟩ := segment
      rw [List.map_cons, List.forall_mem_cons] at same
      exact ⟨start, next, same.1.trans isCell,
        inductionHypothesis segment same.2⟩

/-! ## Circles -/

/-- The items of a circle from the first to the last, which it is known by. -/
structure Circle
    (heap : Heap α)
    (last : Option Nat)
    (items : List (Nat × α)) : Prop where
  last_eq : last = items.getLast?.map Prod.fst
  closed : ∀ first ∈ items.head?, Segment heap first.1 items first.1
  nodup : (items.map Prod.fst).Nodup

theorem circle_nil : Circle heap none [] where
  last_eq := rfl
  closed := nofun
  nodup := .nil

theorem Circle.eq_nil
    {items : List (Nat × α)}
    (circle : Circle heap none items) :
    items = [] := by
  have ends := circle.last_eq
  rwa [eq_comm, Option.map_eq_none_iff, List.getLast?_eq_none_iff] at ends

theorem Circle.ne_nil
    {last : Nat}
    {items : List (Nat × α)}
    (circle : Circle heap (some last) items) :
    items ≠ [] := by
  rintro rfl
  cases circle.last_eq

/-- The last cell leads to the first one. -/
theorem Circle.last_cell
    {last first : Nat}
    {data : α}
    {rest : List (Nat × α)}
    (circle : Circle heap (some last) ((first, data) :: rest)) :
    ∃ front lastData,
      (first, data) :: rest = front ++ [(last, lastData)] ∧
        Segment heap first front last ∧
        heap last = some { data := lastData, next := first } := by
  have ends := circle.last_eq
  rw [eq_comm, Option.map_eq_some_iff] at ends
  obtain ⟨⟨_, lastData⟩, isLast, rfl⟩ := ends
  obtain ⟨front, shape⟩ := List.getLast?_eq_some_iff.mp isLast
  have closed := circle.closed (first, data) rfl
  rw [shape] at closed
  obtain ⟨middle, before, rfl, next, isCell, rfl⟩ :=
    segment_append.mp closed
  exact ⟨front, lastData, shape, before, isCell⟩

/-- The first cell is the one with the first item. -/
theorem Circle.first_cell
    {last : Option Nat}
    {first : Nat}
    {data : α}
    {rest : List (Nat × α)}
    (circle : Circle heap last ((first, data) :: rest)) :
    ∃ next, heap first = some { data := data, next := next } ∧
      Segment heap next rest first := by
  obtain ⟨_, next, isCell, segment⟩ := circle.closed (first, data) rfl
  exact ⟨next, isCell, segment⟩

/-- The first cell of an empty queue is its own successor. -/
theorem circle_singleton
    (heap : Heap α)
    (cell : Nat)
    (data : α) :
    Circle
      (Function.update heap cell (some { data := data, next := cell }))
      (some cell) [(cell, data)] where
  last_eq := rfl
  closed := by
    rintro _ ⟨⟩
    exact ⟨rfl, cell, Function.update_self .., rfl⟩
  nodup := List.nodup_singleton cell

/-- A new cell goes between the last one and the first. -/
theorem Circle.push
    {last first cell : Nat}
    {lastData data : α}
    {items : List (Nat × α)}
    (circle : Circle heap (some last) items)
    (isLast : heap last = some { data := lastData, next := first })
    (fresh : cell ∉ items.map Prod.fst) :
    Circle
      (Function.update
        (Function.update heap cell (some { data := data, next := first }))
        last (some { data := lastData, next := cell }))
      (some cell) (items ++ [(cell, data)]) := by
  cases items with
  | nil =>
      exact (circle.ne_nil rfl).elim
  | cons item rest =>
      obtain ⟨head, headData⟩ := item
      obtain ⟨front, lastData', shape, before, isLast'⟩ := circle.last_cell
      obtain ⟨⟩ := isLast.symm.trans isLast'
      have nodup := circle.nodup
      rw [shape] at fresh nodup ⊢
      rw [List.map_append, List.nodup_append] at nodup
      have apart : last ≠ cell := by
        rintro rfl
        simp at fresh
      refine ⟨by simp, ?_, ?_⟩
      · rintro firstItem isFirst
        rw [← shape, List.cons_append, List.head?_cons] at isFirst
        obtain rfl := Option.some.inj isFirst
        rw [List.append_assoc]
        refine segment_append.mpr ⟨last, ?_, rfl, cell, ?_, ?_⟩
        · refine before.frame ?_
          intro other member
          have notLast : other ≠ last := by
            rintro rfl
            exact nodup.2.2 other member other (by simp) rfl
          have notCell : other ≠ cell := by
            rintro rfl
            rw [List.map_append] at fresh
            exact fresh (List.mem_append_left _ member)
          rw [Function.update_of_ne notLast, Function.update_of_ne notCell]
        · exact Function.update_self ..
        · refine ⟨rfl, first, ?_, rfl⟩
          rw [Function.update_of_ne apart.symm, Function.update_self]
      · rw [List.map_append, List.nodup_append]
        refine ⟨by rw [← shape]; exact circle.nodup, by simp, ?_⟩
        intro other member new isNew same
        obtain rfl : new = cell := by simpa using isNew
        subst same
        exact fresh member

/-- Without its only cell a queue is empty. -/
theorem Circle.pop_only
    {cell : Nat}
    {data : α}
    {rest : List (Nat × α)}
    (circle : Circle heap (some cell) ((cell, data) :: rest)) :
    rest = [] := by
  obtain ⟨front, lastData, shape, _⟩ := circle.last_cell
  cases front with
  | nil =>
      exact (List.cons.inj shape).2
  | cons item front =>
      have nodup := circle.nodup
      obtain ⟨rfl, rfl⟩ := List.cons.inj shape
      simp at nodup

/-- Without its first cell a queue goes from the second one to the last. -/
theorem Circle.pop
    {last cell next : Nat}
    {data lastData : α}
    {rest : List (Nat × α)}
    (circle : Circle heap (some last) ((cell, data) :: rest))
    (several : last ≠ cell)
    (isLast : heap last = some { data := lastData, next := cell })
    (isFirst : heap cell = some { data := data, next := next }) :
    Circle
      (Function.update
        (Function.update heap last
          (some { data := lastData, next := next }))
        cell none)
      (some last) rest := by
  obtain ⟨front, lastData', shape, before, isLast'⟩ := circle.last_cell
  obtain ⟨⟩ := isLast.symm.trans isLast'
  have nodup := circle.nodup
  cases front with
  | nil =>
      obtain ⟨⟨⟩, _⟩ := List.cons.inj shape
      exact (several rfl).elim
  | cons item front =>
      rw [List.cons_append] at shape
      obtain ⟨rfl, rfl⟩ := List.cons.inj shape
      obtain ⟨_, next', isFirst', before⟩ := before
      obtain ⟨⟩ := isFirst.symm.trans isFirst'
      simp only [List.map_cons, List.nodup_cons, List.map_append,
        List.map_nil] at nodup
      obtain ⟨notCell, nodup⟩ := nodup
      refine ⟨by simp, ?_, ?_⟩
      · intro firstItem isHead
        have starts : firstItem.1 = next := by
          cases front with
          | nil =>
              obtain rfl := Option.some.inj isHead
              exact before.symm
          | cons item front =>
              obtain rfl := Option.some.inj isHead
              exact before.1.symm
        rw [starts]
        refine segment_append.mpr ⟨last, ?_, rfl, next, ?_, rfl⟩
        · refine before.frame ?_
          intro other member
          have notFirst : other ≠ cell := by
            rintro rfl
            exact notCell (List.mem_append_left _ member)
          have notLast : other ≠ last := by
            rintro rfl
            rw [List.nodup_append] at nodup
            exact nodup.2.2 other member other (by simp) rfl
          rw [Function.update_of_ne notFirst, Function.update_of_ne notLast]
        · rw [Function.update_of_ne several, Function.update_self]
      · simpa using nodup

end

end Ring
