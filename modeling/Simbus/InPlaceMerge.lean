import Mathlib

/-!
# Merge sort in place

The halves of a part of an array are sorted; the first one is copied out, and the
two are merged into the part from its start.  The places that are free there are
always as many as there are items copied out, so nothing is overwritten that has
not been taken, and the copy needs half of the size of the array.
-/

set_option autoImplicit false

namespace InPlaceMerge

variable {α : Type}

/-- Store a value at a place of an array. -/
def store (cells : List α) (place : Nat) (value : α) : Option (List α) :=
  if place < cells.length then some (cells.set place value) else none

/-- Copy a number of items from `source[j]` on to `target[i]`. -/
def copy (source : List α) : Nat → List α → Nat → Nat → Option (List α)
  | 0, target, _, _ => some target
  | count + 1, target, i, j => do
      let value ← source[j]?
      let target ← store target i value
      copy source count target (i + 1) (j + 1)

variable (le : α → α → Bool)

/-- Take the lesser one of `b[i]` and `a[j]` until there is none on one side. -/
def mergeLoop (b : List α) (hi : Nat) :
    Nat → List α → Nat → Nat → Nat → Option (List α × Nat × Nat × Nat)
  | 0, _, _, _, _ => none
  | fuel + 1, a, i, j, k =>
      if k < j ∧ j ≤ hi then do
        let left ← b[i]?
        let right ← a[j]?
        if le left right then
          let a ← store a k left
          mergeLoop b hi fuel a (i + 1) j (k + 1)
        else
          let a ← store a k right
          mergeLoop b hi fuel a i (j + 1) (k + 1)
      else
        some (a, i, j, k)

/-- Merge the sorted parts up to `mid` and behind it. -/
def merge (a b : List α) (lo mid hi : Nat) : Option (List α × List α) := do
  let b ← copy a (mid + 1 - lo) b 0 lo
  let (a, i, j, k) ← mergeLoop le b hi (hi + 2 - lo) a 0 (mid + 1) lo
  let a ← copy b (j - k) a k i
  some (a, b)

/-- Sort from `lo` to `hi`. -/
def mergesort : Nat → List α → List α → Nat → Nat → Option (List α × List α)
  | 0, _, _, _, _ => none
  | fuel + 1, a, b, lo, hi =>
      if lo < hi then do
        let mid := (lo + hi) / 2
        let (a, b) ← mergesort fuel a b lo mid
        let (a, b) ← mergesort fuel a b (mid + 1) hi
        merge le a b lo mid hi
      else
        some (a, b)

/-! ## Stores and copies -/

theorem getElem?_append (front back : List α) (value : α) :
    (front ++ value :: back)[front.length]? = some value := by
  rw [List.getElem?_append_right (Nat.le_refl _), Nat.sub_self,
    List.getElem?_cons_zero]

theorem store_append
    (front back : List α)
    (old value : α) :
    store (front ++ old :: back) front.length value =
      some (front ++ value :: back) := by
  have inside : front.length < (front ++ old :: back).length := by
    rw [List.length_append, List.length_cons]
    omega
  rw [store, if_pos inside, List.set_append_right _ _ (Nat.le_refl _),
    Nat.sub_self, List.set_cons_zero]

/-- A copy replaces as many items as it takes. -/
theorem copy_append
    (before items after front old back : List α)
    (sameLength : old.length = items.length) :
    copy (before ++ (items ++ after)) items.length (front ++ (old ++ back))
        front.length before.length =
      some (front ++ (items ++ back)) := by
  induction items generalizing before front old with
  | nil =>
      rw [List.eq_nil_of_length_eq_zero sameLength]
      rfl
  | cons item items inductionHypothesis =>
      cases old with
      | nil =>
          cases sameLength
      | cons first old =>
          have next := inductionHypothesis (before ++ [item]) (front ++ [item])
            old (Nat.succ.inj sameLength)
          rw [List.length_append, List.length_append] at next
          rw [List.append_assoc, List.append_assoc, List.append_assoc] at next
          rw [List.length_cons, copy, List.cons_append, List.cons_append,
            getElem?_append]
          simp only [Option.bind_eq_bind, Option.bind_some, store_append]
          exact next

/-! ## The merge -/

variable {le}

/--
The loop and the copy behind it merge what is left of the copied half and of the
other one, into as much free room as there is left of the copied half.
-/
theorem mergeLoop_merge
    {used left tail done hole right after : List α}
    {hi fuel : Nat}
    (sameLength : hole.length = left.length)
    (isEnd : hi + 1 = done.length + (left.length + right.length))
    (enough : left.length + right.length < fuel) :
    ∃ a i j k,
      mergeLoop le (used ++ (left ++ tail)) hi fuel
          (done ++ (hole ++ (right ++ after))) used.length
          (done.length + left.length) done.length = some (a, i, j, k) ∧
        copy (used ++ (left ++ tail)) (j - k) a k i =
          some (done ++ (List.merge left right le ++ after)) := by
  induction fuel generalizing used left done hole right with
  | zero =>
      exact absurd enough (Nat.not_lt_zero _)
  | succ fuel inductionHypothesis =>
      cases left with
      | nil =>
          rw [List.eq_nil_of_length_eq_zero sameLength, List.nil_merge]
          refine ⟨_, _, _, _, if_neg fun both => ?_, ?_⟩
          · exact Nat.lt_irrefl _ both.1
          · rw [List.length_nil, Nat.add_zero, Nat.sub_self]
            rfl
      | cons first left =>
          cases right with
          | nil =>
              refine ⟨_, _, _, _, if_neg fun both => ?_, ?_⟩
              · have inside := both.2
                rw [List.length_nil] at isEnd
                omega
              · rw [List.merge_right, Nat.add_sub_cancel_left]
                exact copy_append used (first :: left) tail done hole _ sameLength
          | cons second right =>
              cases hole with
              | nil =>
                  cases sameLength
              | cons free hole =>
                  have loops : done.length < done.length + (first :: left).length ∧
                      done.length + (first :: left).length ≤ hi := by
                    rw [List.length_cons, List.length_cons] at isEnd
                    rw [List.length_cons]
                    omega
                  have sameRest : hole.length = left.length :=
                    Nat.succ.inj sameLength
                  have isLeft :
                      (used ++ (first :: left ++ tail))[used.length]? =
                        some first :=
                    getElem?_append used (left ++ tail) first
                  have isRight :
                      (done ++ (free :: hole ++ (second :: right ++ after)))[
                        done.length + (first :: left).length]? = some second := by
                    rw [← List.append_assoc, ← sameLength, ← List.length_append]
                    exact getElem?_append _ _ _
                  have stores (value : α) :
                      store (done ++ (free :: hole ++ (second :: right ++ after)))
                          done.length value =
                        some (done ++ (value :: hole ++
                          (second :: right ++ after))) :=
                    store_append _ _ _ _
                  rw [List.length_cons, List.length_cons] at isEnd enough
                  rw [mergeLoop, if_pos loops]
                  simp only [Option.bind_eq_bind, isLeft, isRight,
                    Option.bind_some, stores]
                  by_cases isLess : le first second = true
                  · obtain ⟨a, i, j, k, loop, rest⟩ :=
                      @inductionHypothesis (used ++ [first]) left
                        (done ++ [first]) hole (second :: right) sameRest
                        (by simp only [List.length_append, List.length_cons,
                              List.length_nil]; omega)
                        (by simp only [List.length_cons]; omega)
                    refine ⟨a, i, j, k, ?_, ?_⟩
                    · rw [if_pos isLess, ← loop]
                      simp [Nat.add_assoc, Nat.add_comm 1]
                    · rw [List.cons_merge_cons_pos _ _ _ isLess]
                      simpa using rest
                  · obtain ⟨a, i, j, k, loop, rest⟩ :=
                      @inductionHypothesis used (first :: left)
                        (done ++ [second]) (hole ++ [second]) right
                        (by simp only [List.length_append, List.length_cons,
                              List.length_nil, sameRest])
                        (by simp only [List.length_append, List.length_cons,
                              List.length_nil]; omega)
                        (by simp only [List.length_cons]; omega)
                    refine ⟨a, i, j, k, ?_, ?_⟩
                    · rw [if_neg isLess, ← loop]
                      simp [Nat.add_assoc, Nat.add_comm 1]
                    · rw [List.cons_merge_cons_neg _ _ _ isLess]
                      simpa using rest

/-- Two parts are merged where they stand. -/
theorem merge_eq
    {before left right after b : List α}
    (room : left.length ≤ b.length)
    {mid hi : Nat}
    (isMid : mid + 1 = before.length + left.length)
    (isEnd : hi + 1 = before.length + (left.length + right.length)) :
    ∃ b', b'.length = b.length ∧
      merge le (before ++ (left ++ (right ++ after))) b before.length mid hi =
        some (before ++ (List.merge left right le ++ after), b') := by
  have copied : copy (before ++ (left ++ (right ++ after))) left.length b 0
      before.length = some (left ++ b.drop left.length) := by
    have takes := copy_append before left (right ++ after) []
      (b.take left.length) (b.drop left.length)
      (by rw [List.length_take, Nat.min_eq_left room])
    rwa [List.take_append_drop, List.nil_append, List.nil_append] at takes
  have enough : left.length + right.length < hi + 2 - before.length := by
    omega
  obtain ⟨a, i, j, k, loop, rest⟩ :=
    @mergeLoop_merge α le [] left (b.drop left.length) before left right after hi
      _ rfl isEnd enough
  rw [← isMid, List.nil_append] at loop
  refine ⟨left ++ b.drop left.length, ?_, ?_⟩
  · rw [List.length_append, List.length_drop, Nat.add_sub_cancel' room]
  · have isCount : mid + 1 - before.length = left.length := by
      omega
    rw [merge, isCount, copied]
    simp only [Option.bind_eq_bind, Option.bind_some]
    rw [List.length_nil] at loop
    rw [loop, Option.bind_some]
    rw [List.nil_append] at rest
    rw [rest, Option.bind_some]

/-- A list of at least two items is sorted by its halves. -/
theorem mergeSort_halves
    {items : List α}
    (long : 2 ≤ items.length) :
    items.mergeSort le =
      List.merge ((items.take ((items.length + 1) / 2)).mergeSort le)
        ((items.drop ((items.length + 1) / 2)).mergeSort le) le := by
  rcases items with _ | ⟨first, _ | ⟨second, items⟩⟩
  · cases long
  · exact absurd long (Nat.not_succ_le_self 1)
  · rw [List.mergeSort]
    simp

/--
The part is sorted as the list of its items is, and nothing is accessed outside
of the two arrays.
-/
theorem mergesort_eq
    {before items after b : List α}
    {fuel hi : Nat}
    (isEnd : hi + 1 = before.length + items.length)
    (room : (items.length + 1) / 2 ≤ b.length)
    (enough : items.length ≤ fuel)
    (someFuel : 0 < fuel) :
    ∃ b', b'.length = b.length ∧
      mergesort le fuel (before ++ (items ++ after)) b before.length hi =
        some (before ++ (items.mergeSort le ++ after), b') := by
  induction fuel generalizing before items after b hi with
  | zero =>
      cases someFuel
  | succ fuel inductionHypothesis =>
      by_cases long : 2 ≤ items.length
      · have loops : before.length < hi := by
          omega
        generalize isHalf : (items.length + 1) / 2 = half at room
        have leftSize : (items.take half).length = half := by
          rw [List.length_take]
          omega
        have rightSize : (items.drop half).length = items.length - half :=
          List.length_drop
        have isMid : (before.length + hi) / 2 + 1 = before.length + half := by
          omega
        obtain ⟨b₁, size₁, sortedLeft⟩ :=
          @inductionHypothesis before (items.take half) (items.drop half ++ after)
            b ((before.length + hi) / 2) (by rw [leftSize, isMid])
            (by rw [leftSize]; omega) (by rw [leftSize]; omega) (by omega)
        obtain ⟨b₂, size₂, sortedRight⟩ :=
          @inductionHypothesis (before ++ (items.take half).mergeSort le)
            (items.drop half) after b₁ hi
            (by
              rw [List.length_append, List.length_mergeSort, leftSize, rightSize]
              omega)
            (by rw [rightSize]; omega) (by rw [rightSize]; omega) (by omega)
        obtain ⟨b₃, size₃, merged⟩ :=
          @merge_eq α le before ((items.take half).mergeSort le)
            ((items.drop half).mergeSort le) after b₂
            (by rw [List.length_mergeSort, leftSize]; omega)
            ((before.length + hi) / 2) hi
            (by rw [List.length_mergeSort, leftSize, isMid])
            (by
              rw [List.length_mergeSort, List.length_mergeSort, leftSize,
                rightSize]
              omega)
        refine ⟨b₃, by rw [size₃, size₂, size₁], ?_⟩
        rw [List.length_append, List.length_mergeSort, leftSize, ← isMid,
          List.append_assoc, List.append_assoc] at sortedRight
        rw [← List.append_assoc (items.take half), List.take_append_drop]
          at sortedLeft
        rw [mergesort, if_pos loops]
        simp only [Option.bind_eq_bind]
        rw [sortedLeft, Option.bind_some, sortedRight, Option.bind_some, merged,
          mergeSort_halves long, isHalf]
      · have ends : ¬ before.length < hi := by
          omega
        have same : items.mergeSort le = items := by
          rcases items with _ | ⟨first, _ | ⟨second, items⟩⟩
          · exact List.mergeSort_nil
          · exact List.mergeSort_singleton first
          · exact absurd (Nat.le_add_left 2 items.length) long
        rw [same]
        exact ⟨b, rfl, if_neg ends⟩

end InPlaceMerge
