import Mathlib

/-!
# Splay trees

Binary search trees that are splayed from the top down.  On the way to a key the
nodes below it are linked into one tree and the nodes above it into another, and
two steps to the same side rotate the first node behind the second.  Where the
way ends, the last node becomes the root over both trees.

Splaying does not change the sequence of the entries.  In an ordered tree it
parts them at the key, so that the root tells whether the key is there and a new
key can be put over the two parts.
-/

set_option autoImplicit false

namespace Splay

/-- A binary tree with a key and a value at each node. -/
inductive Tree (Key Value : Type) where
  | empty
  | node (left : Tree Key Value) (key : Key) (value : Value)
      (right : Tree Key Value)
  deriving DecidableEq

section

variable {Key Value : Type}

/-- Whether there is no node. -/
def Tree.isEmpty : Tree Key Value → Bool
  | .empty => true
  | .node .. => false

/-- The entries from the left to the right. -/
def Tree.entries : Tree Key Value → List (Key × Value)
  | .empty => []
  | .node left key value right =>
      left.entries ++ (key, value) :: right.entries

@[simp] theorem entries_empty :
    (Tree.empty : Tree Key Value).entries = [] :=
  rfl

@[simp] theorem entries_node
    (left right : Tree Key Value)
    (key : Key)
    (value : Value) :
    (Tree.node left key value right).entries =
      left.entries ++ (key, value) :: right.entries :=
  rfl

/-- The entry at the root. -/
def Tree.root? : Tree Key Value → Option (Key × Value)
  | .empty => none
  | .node _ key value _ => some (key, value)

theorem mem_entries_of_root
    {tree : Tree Key Value}
    {entry : Key × Value}
    (isRoot : tree.root? = some entry) :
    entry ∈ tree.entries := by
  cases tree with
  | empty =>
      cases isRoot
  | node left key value right =>
      obtain rfl : (key, value) = entry := Option.some.inj isRoot
      simp

/-- A node that was linked on the way, with the subtree it keeps. -/
structure Link (Key Value : Type) where
  key : Key
  value : Value
  kept : Tree Key Value

/-- The nodes linked on the left, the last one first, over a last right subtree. -/
def joinLeft :
    List (Link Key Value) → Tree Key Value → Tree Key Value
  | [], last => last
  | link :: earlier, last =>
      joinLeft earlier (.node link.kept link.key link.value last)

/-- The nodes linked on the right, the last one first, over a last left subtree. -/
def joinRight :
    List (Link Key Value) → Tree Key Value → Tree Key Value
  | [], last => last
  | link :: earlier, last =>
      joinRight earlier (.node last link.key link.value link.kept)

/-- The entries of the nodes linked on the left. -/
def leftEntries : List (Link Key Value) → List (Key × Value)
  | [] => []
  | link :: earlier =>
      leftEntries earlier ++ (link.kept.entries ++ [(link.key, link.value)])

/-- The entries of the nodes linked on the right. -/
def rightEntries : List (Link Key Value) → List (Key × Value)
  | [] => []
  | link :: earlier =>
      (link.key, link.value) :: link.kept.entries ++ rightEntries earlier

theorem entries_joinLeft
    (links : List (Link Key Value))
    (last : Tree Key Value) :
    (joinLeft links last).entries = leftEntries links ++ last.entries := by
  induction links generalizing last with
  | nil =>
      rfl
  | cons link earlier inductionHypothesis =>
      rw [joinLeft, inductionHypothesis]
      simp [leftEntries]

theorem entries_joinRight
    (links : List (Link Key Value))
    (last : Tree Key Value) :
    (joinRight links last).entries = last.entries ++ rightEntries links := by
  induction links generalizing last with
  | nil =>
      simp [joinRight, rightEntries]
  | cons link earlier inductionHypothesis =>
      rw [joinRight, inductionHypothesis]
      simp [rightEntries]

/-- The last node of the way as the root over the nodes linked on both sides. -/
def assemble
    (lefts rights : List (Link Key Value))
    (left : Tree Key Value)
    (key : Key)
    (value : Value)
    (right : Tree Key Value) : Tree Key Value :=
  .node (joinLeft lefts left) key value (joinRight rights right)

theorem entries_assemble
    (lefts rights : List (Link Key Value))
    (left right : Tree Key Value)
    (key : Key)
    (value : Value) :
    (assemble lefts rights left key value right).entries =
      leftEntries lefts ++ (Tree.node left key value right).entries ++
        rightEntries rights := by
  simp [assemble, entries_joinLeft, entries_joinRight]

end

section

variable {Key Value : Type}
variable [LinearOrder Key]

/-! ## Splaying -/

/-- The way to a key from a node, and whether it ends at the key. -/
def descend (key : Key) :
    Tree Key Value → List (Link Key Value) → List (Link Key Value) →
      Tree Key Value × Bool
  | .empty, _, _ => (.empty, false)
  | .node left here value right, lefts, rights =>
      if key < here then
        match left with
        | .empty => (assemble lefts rights .empty here value right, false)
        | .node outer next nextValue between =>
            if key < next then
              -- The node goes behind its left child, which is linked.
              if outer.isEmpty then
                (assemble lefts rights .empty next nextValue
                  (.node between here value right), false)
              else
                descend key outer lefts
                  (⟨next, nextValue, .node between here value right⟩ :: rights)
            else
              descend key (.node outer next nextValue between) lefts
                (⟨here, value, right⟩ :: rights)
      else if here < key then
        match right with
        | .empty => (assemble lefts rights left here value .empty, false)
        | .node between next nextValue outer =>
            if next < key then
              if outer.isEmpty then
                (assemble lefts rights (.node left here value between) next
                  nextValue .empty, false)
              else
                descend key outer
                  (⟨next, nextValue, .node left here value between⟩ :: lefts)
                  rights
            else
              descend key (.node between next nextValue outer)
                (⟨here, value, left⟩ :: lefts) rights
      else
        (assemble lefts rights left here value right, true)

/-- Splay a tree towards a key. -/
def splay (key : Key) (tree : Tree Key Value) : Tree Key Value :=
  (descend key tree [] []).1

/-- Whether the way to a key ends at it. -/
def reaches (key : Key) (tree : Tree Key Value) : Bool :=
  (descend key tree [] []).2

/-- Put a new key over the two parts of the splayed tree. -/
def insert (key : Key) (value : Value) (tree : Tree Key Value) :
    Tree Key Value :=
  match splay key tree with
  | .empty => .node .empty key value .empty
  | .node left here old right =>
      if key < here then
        .node left key value (.node .empty here old right)
      else if here < key then
        .node (.node left here old .empty) key value right
      else
        .node left here old right

/-! ## The sequence of the entries -/

omit [LinearOrder Key] in
theorem isEmpty_iff {tree : Tree Key Value} :
    tree.isEmpty = true ↔ tree = .empty := by
  cases tree <;> simp [Tree.isEmpty]

/-- No entry is lost or moved on the way. -/
theorem entries_descend
    {key : Key}
    {tree : Tree Key Value}
    {lefts rights : List (Link Key Value)}
    (isNode : tree ≠ .empty) :
    (descend key tree lefts rights).1.entries =
      leftEntries lefts ++ tree.entries ++ rightEntries rights := by
  fun_induction descend key tree lefts rights with
  | case1 =>
      exact (isNode rfl).elim
  | case2 | case6 | case10 =>
      exact entries_assemble ..
  | case3 | case7 =>
      rename_i isEmpty
      rw [entries_assemble]
      simp [isEmpty_iff.mp isEmpty]
  | case4 _ _ _ _ _ _ _ _ _ _ _ isOuter inductionHypothesis =>
      rw [inductionHypothesis (mt isEmpty_iff.mpr isOuter)]
      simp [rightEntries]
  | case5 _ _ _ _ _ _ _ _ _ _ _ inductionHypothesis =>
      rw [inductionHypothesis nofun]
      simp [rightEntries]
  | case8 _ _ _ _ _ _ _ _ _ _ _ _ isOuter inductionHypothesis =>
      rw [inductionHypothesis (mt isEmpty_iff.mpr isOuter)]
      simp [leftEntries]
  | case9 _ _ _ _ _ _ _ _ _ _ _ _ inductionHypothesis =>
      rw [inductionHypothesis nofun]
      simp [leftEntries]

/-- Splaying does not change the sequence of the entries. -/
@[simp] theorem entries_splay
    (key : Key)
    (tree : Tree Key Value) :
    (splay key tree).entries = tree.entries := by
  cases tree with
  | empty =>
      rfl
  | node left here value right =>
      have isNode : Tree.node left here value right ≠ .empty := nofun
      rw [splay, entries_descend isNode]
      simp [leftEntries, rightEntries]

/-! ## The two parts -/

/-- All entries are below a key. -/
def Below (key : Key) (entries : List (Key × Value)) : Prop :=
  ∀ entry ∈ entries, entry.1 < key

/-- All entries are above a key. -/
def Above (key : Key) (entries : List (Key × Value)) : Prop :=
  ∀ entry ∈ entries, key < entry.1

/-- The keys increase from the left to the right. -/
def Tree.Ordered (tree : Tree Key Value) : Prop :=
  tree.entries.Pairwise fun earlier later => earlier.1 < later.1

/-- A splayed tree: the key parts the entries, and the root has it where it is there. -/
def Parted (key : Key) (splayed : Tree Key Value × Bool) : Prop :=
  ∃ left here value right,
    splayed.1 = .node left here value right ∧
      Below key left.entries ∧ Above key right.entries ∧
      (splayed.2 = true ↔ here = key)

theorem ordered_node
    {left right : Tree Key Value}
    {here : Key}
    {value : Value} :
    (Tree.node left here value right).Ordered ↔
      left.Ordered ∧ right.Ordered ∧ Below here left.entries ∧
        Above here right.entries := by
  rw [Tree.Ordered, entries_node, List.pairwise_append, List.pairwise_cons]
  constructor
  · rintro ⟨leftOrdered, ⟨above, rightOrdered⟩, across⟩
    exact ⟨leftOrdered, rightOrdered,
      fun entry member => across entry member _ List.mem_cons_self,
      above⟩
  · rintro ⟨leftOrdered, rightOrdered, below, above⟩
    refine ⟨leftOrdered, ⟨above, rightOrdered⟩, ?_⟩
    intro earlier isLeft later isLater
    rcases List.mem_cons.mp isLater with rfl | isRight
    · exact below earlier isLeft
    · exact (below earlier isLeft).trans (above later isRight)

theorem parted_assemble
    {key here : Key}
    {value : Value}
    {left right : Tree Key Value}
    {lefts rights : List (Link Key Value)}
    {found : Bool}
    (belowLefts : Below key (leftEntries lefts))
    (aboveRights : Above key (rightEntries rights))
    (below : Below key left.entries)
    (above : Above key right.entries)
    (isFound : found = true ↔ here = key) :
    Parted key (assemble lefts rights left here value right, found) := by
  refine ⟨_, here, value, _, rfl, ?_, ?_, isFound⟩
  · intro entry member
    rw [entries_joinLeft] at member
    rcases List.mem_append.mp member with linked | isLeft
    · exact belowLefts entry linked
    · exact below entry isLeft
  · intro entry member
    rw [entries_joinRight] at member
    rcases List.mem_append.mp member with isRight | linked
    · exact above entry isRight
    · exact aboveRights entry linked

/-- A node linked on the right keeps that side above the key. -/
theorem above_link
    {key here : Key}
    {value : Value}
    {kept : Tree Key Value}
    {rights : List (Link Key Value)}
    (isAbove : key < here)
    (keptAbove : Above here kept.entries)
    (aboveRights : Above key (rightEntries rights)) :
    Above key (rightEntries (⟨here, value, kept⟩ :: rights)) := by
  intro entry member
  rw [rightEntries, List.cons_append, List.mem_cons, List.mem_append] at member
  rcases member with rfl | isKept | linked
  · exact isAbove
  · exact isAbove.trans (keptAbove entry isKept)
  · exact aboveRights entry linked

/-- A node linked on the left keeps that side below the key. -/
theorem below_link
    {key here : Key}
    {value : Value}
    {kept : Tree Key Value}
    {lefts : List (Link Key Value)}
    (isBelow : here < key)
    (keptBelow : Below here kept.entries)
    (belowLefts : Below key (leftEntries lefts)) :
    Below key (leftEntries (⟨here, value, kept⟩ :: lefts)) := by
  intro entry member
  rw [leftEntries, List.mem_append, List.mem_append, List.mem_singleton]
    at member
  rcases member with linked | isKept | rfl
  · exact belowLefts entry linked
  · exact (keptBelow entry isKept).trans isBelow
  · exact isBelow

theorem above_node
    {here next : Key}
    {value : Value}
    {left right : Tree Key Value}
    (isAbove : next < here)
    (leftAbove : Above next left.entries)
    (rightAbove : Above here right.entries) :
    Above next (Tree.node left here value right).entries := by
  intro entry member
  rw [entries_node, List.mem_append, List.mem_cons] at member
  rcases member with isLeft | rfl | isRight
  · exact leftAbove entry isLeft
  · exact isAbove
  · exact isAbove.trans (rightAbove entry isRight)

theorem below_node
    {here next : Key}
    {value : Value}
    {left right : Tree Key Value}
    (isBelow : here < next)
    (leftBelow : Below here left.entries)
    (rightBelow : Below next right.entries) :
    Below next (Tree.node left here value right).entries := by
  intro entry member
  rw [entries_node, List.mem_append, List.mem_cons] at member
  rcases member with isLeft | rfl | isRight
  · exact (leftBelow entry isLeft).trans isBelow
  · exact isBelow
  · exact rightBelow entry isRight

/-- In an ordered tree the way to a key parts the entries at the key. -/
theorem parted_descend
    {key : Key}
    {tree : Tree Key Value}
    {lefts rights : List (Link Key Value)}
    (isNode : tree ≠ .empty)
    (ordered : tree.Ordered)
    (belowLefts : Below key (leftEntries lefts))
    (aboveRights : Above key (rightEntries rights)) :
    Parted key (descend key tree lefts rights) := by
  fun_induction descend key tree lefts rights with
  | case1 =>
      exact (isNode rfl).elim
  | case2 here value right lefts rights isBefore =>
      obtain ⟨_, _, _, above⟩ := ordered_node.mp ordered
      refine parted_assemble belowLefts aboveRights nofun ?_ ?_
      · exact fun entry member => isBefore.trans (above entry member)
      · simp [isBefore.ne']
  | case3 here value right lefts rights isBefore outer next nextValue between
      isNext isEmpty =>
      obtain ⟨leftOrdered, _, below, above⟩ := ordered_node.mp ordered
      obtain ⟨_, _, _, aboveNext⟩ := ordered_node.mp leftOrdered
      have nextBefore : next < here := below (next, nextValue) (by simp)
      refine parted_assemble belowLefts aboveRights nofun ?_ ?_
      · have isAbove : Above next (Tree.node between here value right).entries :=
          above_node nextBefore aboveNext above
        exact fun entry member => isNext.trans (isAbove entry member)
      · simp [isNext.ne']
  | case4 here value right lefts rights isBefore outer next nextValue between
      isNext isOuter inductionHypothesis =>
      obtain ⟨leftOrdered, _, below, above⟩ := ordered_node.mp ordered
      obtain ⟨outerOrdered, _, _, aboveNext⟩ := ordered_node.mp leftOrdered
      have nextBefore : next < here := below (next, nextValue) (by simp)
      exact inductionHypothesis (mt isEmpty_iff.mpr isOuter) outerOrdered
        belowLefts
        (above_link isNext (above_node nextBefore aboveNext above) aboveRights)
  | case5 here value right lefts rights isBefore outer next nextValue between
      isNext inductionHypothesis =>
      obtain ⟨leftOrdered, _, _, above⟩ := ordered_node.mp ordered
      exact inductionHypothesis nofun leftOrdered belowLefts
        (above_link isBefore above aboveRights)
  | case6 left here value lefts rights notBefore isAfter =>
      obtain ⟨_, _, below, _⟩ := ordered_node.mp ordered
      refine parted_assemble belowLefts aboveRights ?_ nofun ?_
      · exact fun entry member => (below entry member).trans isAfter
      · simp [isAfter.ne]
  | case7 left here value lefts rights notBefore isAfter between next nextValue
      outer isNext isEmpty =>
      obtain ⟨_, rightOrdered, below, above⟩ := ordered_node.mp ordered
      obtain ⟨_, _, belowNext, _⟩ := ordered_node.mp rightOrdered
      have nextAfter : here < next := above (next, nextValue) (by simp)
      refine parted_assemble belowLefts aboveRights ?_ nofun ?_
      · have isBelow : Below next (Tree.node left here value between).entries :=
          below_node nextAfter below belowNext
        exact fun entry member => (isBelow entry member).trans isNext
      · simp [isNext.ne]
  | case8 left here value lefts rights notBefore isAfter between next nextValue
      outer isNext isOuter inductionHypothesis =>
      obtain ⟨_, rightOrdered, below, above⟩ := ordered_node.mp ordered
      obtain ⟨_, outerOrdered, belowNext, _⟩ := ordered_node.mp rightOrdered
      have nextAfter : here < next := above (next, nextValue) (by simp)
      exact inductionHypothesis (mt isEmpty_iff.mpr isOuter) outerOrdered
        (below_link isNext (below_node nextAfter below belowNext) belowLefts)
        aboveRights
  | case9 left here value lefts rights notBefore isAfter between next nextValue
      outer isNext inductionHypothesis =>
      obtain ⟨_, rightOrdered, below, _⟩ := ordered_node.mp ordered
      exact inductionHypothesis nofun rightOrdered
        (below_link isAfter below belowLefts) aboveRights
  | case10 left here value right lefts rights notBefore notAfter =>
      obtain ⟨_, _, below, above⟩ := ordered_node.mp ordered
      have isHere : here = key :=
        le_antisymm (not_lt.mp notBefore) (not_lt.mp notAfter)
      subst isHere
      exact parted_assemble belowLefts aboveRights below above (by simp)

/-! ## Finding and inserting -/

section

variable {key : Key}
variable {value : Value}
variable {tree : Tree Key Value}

/-- What a splay leaves: nothing, or two parts under a root. -/
theorem splay_cases
    (key : Key)
    (ordered : tree.Ordered) :
    (tree = .empty ∧ splay key tree = .empty ∧ reaches key tree = false) ∨
      ∃ left here old right,
        splay key tree = .node left here old right ∧
          tree.entries = left.entries ++ (here, old) :: right.entries ∧
          Below key left.entries ∧ Above key right.entries ∧
          (reaches key tree = true ↔ here = key) := by
  cases tree with
  | empty =>
      exact .inl ⟨rfl, rfl, rfl⟩
  | node start first firstValue rest =>
      right
      have isNode : Tree.node start first firstValue rest ≠ .empty := nofun
      have parted : Parted key
          (descend key (.node start first firstValue rest) [] []) :=
        parted_descend isNode ordered nofun nofun
      obtain ⟨left, here, old, right, splayed, below, above, isFound⟩ := parted
      refine ⟨left, here, old, right, splayed, ?_, below, above, isFound⟩
      rw [← entries_splay key, splay, splayed, entries_node]

/-- The way to a key ends at it exactly where the tree has the key. -/
theorem reaches_iff (ordered : tree.Ordered) :
    reaches key tree = true ↔ key ∈ tree.entries.map Prod.fst := by
  rcases splay_cases key ordered with
    ⟨rfl, _, missed⟩ | ⟨left, here, old, right, _, entries, below, above, isFound⟩
  · simp [missed]
  · rw [isFound, entries, List.map_append, List.mem_append, List.map_cons,
      List.mem_cons]
    constructor
    · rintro rfl
      exact .inr (.inl rfl)
    · rintro (isLeft | rfl | isRight)
      · obtain ⟨entry, member, rfl⟩ := List.mem_map.mp isLeft
        exact (lt_irrefl _ (below entry member)).elim
      · rfl
      · obtain ⟨entry, member, rfl⟩ := List.mem_map.mp isRight
        exact (lt_irrefl _ (above entry member)).elim

/-- A splay towards a key of the tree brings its entry to the root. -/
theorem root_splay
    (ordered : tree.Ordered)
    (member : (key, value) ∈ tree.entries) :
    (splay key tree).root? = some (key, value) := by
  have reached := (reaches_iff ordered).mpr (List.mem_map_of_mem member)
  rcases splay_cases key ordered with
    ⟨rfl, _, _⟩ | ⟨left, here, old, right, splayed, entries, below, above, isFound⟩
  · cases member
  · obtain rfl := isFound.mp reached
    rw [splayed, Tree.root?]
    rw [entries, List.mem_append, List.mem_cons] at member
    rcases member with isLeft | isRoot | isRight
    · exact (lt_irrefl _ (below _ isLeft)).elim
    · rw [isRoot]
    · exact (lt_irrefl _ (above _ isRight)).elim

/-- A new key is put between the two parts, at the root. -/
theorem insert_new
    (value : Value)
    (ordered : tree.Ordered)
    (isNew : key ∉ tree.entries.map Prod.fst) :
    (insert key value tree).root? = some (key, value) ∧
      ∃ before after, tree.entries = before ++ after ∧
        (insert key value tree).entries = before ++ (key, value) :: after ∧
        Below key before ∧ Above key after := by
  have notReached : ¬reaches key tree = true := fun reached =>
    isNew ((reaches_iff ordered).mp reached)
  rcases splay_cases key ordered with
    ⟨rfl, splayed, _⟩ | ⟨left, here, old, right, splayed, entries, below, above, isFound⟩
  · exact ⟨rfl, [], [], rfl, rfl, nofun, nofun⟩
  · rcases lt_trichotomy key here with isBefore | rfl | isAfter
    · have inserted : insert key value tree =
          .node left key value (.node .empty here old right) := by
        rw [insert, splayed]
        exact if_pos isBefore
      refine ⟨by rw [inserted, Tree.root?], left.entries,
        (here, old) :: right.entries, entries, by rw [inserted]; rfl, below, ?_⟩
      intro entry member
      rcases List.mem_cons.mp member with rfl | isRight
      · exact isBefore
      · exact above entry isRight
    · exact (notReached (isFound.mpr rfl)).elim
    · have inserted : insert key value tree =
          .node (.node left here old .empty) key value right := by
        rw [insert, splayed]
        exact (if_neg isAfter.not_gt).trans (if_pos isAfter)
      refine ⟨by rw [inserted, Tree.root?], left.entries ++ [(here, old)],
        right.entries, by simp [entries], by rw [inserted]; rfl, ?_, above⟩
      intro entry member
      rcases List.mem_append.mp member with isLeft | isHere
      · exact below entry isLeft
      · rw [List.mem_singleton.mp isHere]
        exact isAfter

/-- A new key leaves the tree ordered. -/
theorem insert_ordered
    (ordered : tree.Ordered)
    (isNew : key ∉ tree.entries.map Prod.fst) :
    (insert key value tree).Ordered := by
  obtain ⟨_, before, after, entries, inserted, below, above⟩ :=
    insert_new value ordered isNew
  rw [Tree.Ordered, entries, List.pairwise_append] at ordered
  obtain ⟨beforeOrdered, afterOrdered, across⟩ := ordered
  rw [Tree.Ordered, inserted, List.pairwise_append, List.pairwise_cons]
  refine ⟨beforeOrdered, ⟨above, afterOrdered⟩, ?_⟩
  intro earlier isEarlier later isLater
  rcases List.mem_cons.mp isLater with rfl | isAfter
  · exact below earlier isEarlier
  · exact across earlier isEarlier later isAfter

/-- A new key adds its entry and nothing else. -/
theorem entries_insert_perm
    (ordered : tree.Ordered)
    (isNew : key ∉ tree.entries.map Prod.fst) :
    (insert key value tree).entries.Perm ((key, value) :: tree.entries) := by
  obtain ⟨_, before, after, entries, inserted, _, _⟩ :=
    insert_new value ordered isNew
  rw [inserted, entries]
  exact List.perm_middle

/-- Splaying keeps the order. -/
theorem splay_ordered (ordered : tree.Ordered) : (splay key tree).Ordered := by
  rw [Tree.Ordered, entries_splay]
  exact ordered

end

end

end Splay
