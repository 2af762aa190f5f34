import Simbus.SplayTree
import Mathlib

/-!
# Items numbered in the order of their first use

A dictionary keeps each item once, with its number, in a splay tree for the
search and in a chain in the order in which the items came.  The numbers count
the chain, so an item has the same number for good.
-/

set_option autoImplicit false

namespace Numbering

open Splay

/-- The items of a search tree, which are also chained in their order. -/
structure Dictionary (Item : Type) [LinearOrder Item] where
  tree : Tree Item Nat
  chain : List (Item × Nat)
  count : Nat
  ordered : tree.Ordered
  sameEntries : tree.entries.Perm chain
  numbered : chain.map Prod.snd = List.range count

section

variable {Item : Type}
variable [LinearOrder Item]

/-- A dictionary without items. -/
def Dictionary.empty : Dictionary Item where
  tree := .empty
  chain := []
  count := 0
  ordered := List.Pairwise.nil
  sameEntries := .nil
  numbered := rfl

/-- The items in the order of their numbers. -/
def Dictionary.items (dictionary : Dictionary Item) : List Item :=
  dictionary.chain.map Prod.fst

variable (dictionary : Dictionary Item)

@[simp] theorem items_empty :
    (Dictionary.empty : Dictionary Item).items = [] :=
  rfl

theorem length_items : dictionary.items.length = dictionary.count := by
  have sameLength := congrArg List.length dictionary.numbered
  rw [List.length_map, List.length_range] at sameLength
  rw [Dictionary.items, List.length_map, sameLength]

/-- The entries of the chain are the items with their places. -/
theorem mem_chain_iff
    {item : Item}
    {number : Nat} :
    (item, number) ∈ dictionary.chain ↔
      dictionary.items[number]? = some item := by
  have numberAt : ∀ place, place < dictionary.chain.length →
      (dictionary.chain.map Prod.snd)[place]? = some place := by
    intro place inside
    have sameLength := congrArg List.length dictionary.numbered
    rw [List.length_map, List.length_range] at sameLength
    rw [dictionary.numbered, List.getElem?_range (by omega)]
  constructor
  · intro member
    obtain ⟨place, inside, isEntry⟩ := List.getElem_of_mem member
    have isPlace := numberAt place inside
    rw [List.getElem?_map, List.getElem?_eq_getElem inside, isEntry] at isPlace
    obtain rfl : number = place := Option.some.inj isPlace
    rw [Dictionary.items, List.getElem?_map, List.getElem?_eq_getElem inside,
      isEntry]
    rfl
  · intro isItem
    rw [Dictionary.items, List.getElem?_map, Option.map_eq_some_iff] at isItem
    obtain ⟨⟨_, place⟩, isEntry, rfl⟩ := isItem
    have inside := (List.getElem?_eq_some_iff.mp isEntry).1
    have isPlace := numberAt number inside
    rw [List.getElem?_map, isEntry] at isPlace
    obtain rfl : place = number := Option.some.inj isPlace
    exact List.mem_of_getElem? isEntry

theorem mem_entries_iff
    {item : Item}
    {number : Nat} :
    (item, number) ∈ dictionary.tree.entries ↔
      dictionary.items[number]? = some item := by
  rw [dictionary.sameEntries.mem_iff, mem_chain_iff]

theorem mem_keys_iff
    {item : Item} :
    item ∈ dictionary.tree.entries.map Prod.fst ↔ item ∈ dictionary.items :=
  (dictionary.sameEntries.map Prod.fst).mem_iff

/-- No item is there twice. -/
theorem nodup_items : dictionary.items.Nodup := by
  have distinct : (dictionary.tree.entries.map Prod.fst).Nodup := by
    rw [List.Nodup, List.pairwise_map]
    exact dictionary.ordered.imp fun before => before.ne
  exact (dictionary.sameEntries.map Prod.fst).nodup_iff.mp distinct

/-! ## Operations -/

/-- Splay the tree towards an item. -/
def Dictionary.splayTo (item : Item) : Dictionary Item where
  tree := splay item dictionary.tree
  chain := dictionary.chain
  count := dictionary.count
  ordered := splay_ordered dictionary.ordered
  sameEntries := by
    rw [entries_splay]
    exact dictionary.sameEntries
  numbered := dictionary.numbered

/-- The number at the root of the tree. -/
def Dictionary.rootNumber? : Option Nat :=
  dictionary.tree.root?.map Prod.snd

/-- Put a new item into the tree and behind the end of the chain. -/
def Dictionary.add
    (item : Item)
    (isNew : item ∉ dictionary.tree.entries.map Prod.fst) : Dictionary Item where
  tree := insert item dictionary.count dictionary.tree
  chain := dictionary.chain ++
    (insert item dictionary.count dictionary.tree).root?.toList
  count := dictionary.count + 1
  ordered := insert_ordered dictionary.ordered isNew
  sameEntries := by
    rw [(insert_new _ dictionary.ordered isNew).1]
    refine (entries_insert_perm dictionary.ordered isNew).trans ?_
    exact (dictionary.sameEntries.cons _).trans
      (List.perm_append_singleton _ _).symm
  numbered := by
    rw [(insert_new _ dictionary.ordered isNew).1, List.map_append,
      dictionary.numbered]
    exact List.range_succ.symm

@[simp] theorem items_splayTo
    (item : Item) :
    (dictionary.splayTo item).items = dictionary.items :=
  rfl

theorem items_add
    {item : Item}
    (isNew : item ∉ dictionary.tree.entries.map Prod.fst) :
    (dictionary.add item isNew).items = dictionary.items ++ [item] := by
  change (dictionary.chain ++ Option.toList _).map Prod.fst = _
  rw [(insert_new _ dictionary.ordered isNew).1, List.map_append]
  rfl

/-- Splaying brings the number of an item to the root. -/
theorem rootNumber_splayTo
    {item : Item}
    {number : Nat}
    (isItem : dictionary.items[number]? = some item) :
    (dictionary.splayTo item).rootNumber? = some number := by
  have member := (mem_entries_iff dictionary).mpr isItem
  rw [Dictionary.rootNumber?, Dictionary.splayTo,
    root_splay dictionary.ordered member]
  rfl

/-- The way to an item ends at it exactly where the dictionary has the item. -/
theorem reaches_iff_mem {item : Item} :
    reaches item dictionary.tree = true ↔ item ∈ dictionary.items := by
  rw [reaches_iff dictionary.ordered, mem_keys_iff]

/-- The root of the splayed tree is the item exactly where the dictionary has it. -/
theorem root_splay_iff_mem {item : Item} :
    (splay item dictionary.tree).root?.map Prod.fst = some item ↔
      item ∈ dictionary.items := by
  constructor
  · intro isRoot
    rw [Option.map_eq_some_iff] at isRoot
    obtain ⟨entry, isRoot, isItem⟩ := isRoot
    have member : entry.1 ∈ (splay item dictionary.tree).entries.map Prod.fst :=
      List.mem_map_of_mem (mem_entries_of_root isRoot)
    rw [isItem] at member
    rwa [entries_splay, mem_keys_iff] at member
  · intro member
    obtain ⟨number, isItem⟩ := List.mem_iff_getElem?.mp member
    have inTree := (mem_entries_iff dictionary).mpr isItem
    rw [root_splay dictionary.ordered inTree]
    rfl

/-- Splay towards an item and add it unless it is known; its number comes with it. -/
def Dictionary.use
    (item : Item)
    (known : Bool)
    (isKnown : known = true ↔ item ∈ dictionary.items) :
    Dictionary Item × Option Nat :=
  if there : known = true then
    (dictionary.splayTo item, (dictionary.splayTo item).rootNumber?)
  else
    ((dictionary.splayTo item).add item (by
        rwa [mem_keys_iff, items_splayTo, ← isKnown]),
      some dictionary.count)

/-- An item that is used has a number; other items keep theirs. -/
theorem use_spec
    {item : Item}
    {known : Bool}
    (isKnown : known = true ↔ item ∈ dictionary.items) :
    ∃ number, (dictionary.use item known isKnown).2 = some number ∧
      (dictionary.use item known isKnown).1.items[number]? = some item ∧
      dictionary.items <+: (dictionary.use item known isKnown).1.items ∧
      ∀ other ∈ (dictionary.use item known isKnown).1.items,
        other = item ∨ other ∈ dictionary.items := by
  rw [Dictionary.use]
  split
  · rename_i there
    obtain ⟨number, isItem⟩ := List.mem_iff_getElem?.mp (isKnown.mp there)
    exact ⟨number, rootNumber_splayTo dictionary isItem, isItem,
      List.prefix_rfl, fun other member => .inr member⟩
  · refine ⟨dictionary.count, rfl, ?_, ?_, ?_⟩
    · rw [items_add, items_splayTo, List.getElem?_append_right (by
        rw [length_items]), length_items, Nat.sub_self, List.getElem?_cons_zero]
    · rw [items_add, items_splayTo]
      exact List.prefix_append _ _
    · intro other member
      rw [items_add, items_splayTo, List.mem_append, List.mem_singleton] at member
      exact member.symm

/-- A use adds at most one item. -/
theorem count_use_le
    {item : Item}
    {known : Bool}
    (isKnown : known = true ↔ item ∈ dictionary.items) :
    (dictionary.use item known isKnown).1.count ≤ dictionary.count + 1 := by
  rw [Dictionary.use]
  split
  · exact Nat.le_succ _
  · exact Nat.le_refl _

end

end Numbering
