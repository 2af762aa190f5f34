import Mathlib

/-!
# Tables with keys

A table is a list of entries with distinct keys, in the order in which the keys
came.  Entering a key that is there replaces its entry, so that a series of
entries is appended exactly when all of its keys are new.
-/

namespace KeyedTable

variable {κ ν : Type}

/-- The keys of the entries of a table. -/
def keys (entries : List (κ × ν)) : List κ :=
  entries.map Prod.fst

/-- The new keys are distinct and not in the table yet. -/
structure Fresh (before new : List κ) : Prop where
  distinct : new.Nodup
  apart : ∀ key ∈ new, key ∉ before

@[simp]
theorem keys_nil : keys ([] : List (κ × ν)) = [] := by
  rfl

@[simp]
theorem keys_cons
    (entry : κ × ν)
    (entries : List (κ × ν)) :
    keys (entry :: entries) = entry.1 :: keys entries := by
  rfl

@[simp]
theorem keys_append (entries more : List (κ × ν)) :
    keys (entries ++ more) = keys entries ++ keys more :=
  List.map_append

theorem fresh_nil (before : List κ) : Fresh before [] where
  distinct := List.nodup_nil
  apart := by simp

theorem fresh_cons
    {before new : List κ}
    {key : κ} :
    Fresh before (key :: new) ↔
      key ∉ before ∧ Fresh (before ++ [key]) new := by
  constructor
  · rintro ⟨distinct, apart⟩
    rw [List.nodup_cons] at distinct
    rw [List.forall_mem_cons] at apart
    refine ⟨apart.1, distinct.2, ?_⟩
    intro other isNew isOld
    rcases List.mem_append.mp isOld with isOld | isKey
    · exact apart.2 other isNew isOld
    · exact distinct.1 (List.mem_singleton.mp isKey ▸ isNew)
  · rintro ⟨notOld, distinct, apart⟩
    refine ⟨List.nodup_cons.mpr ⟨?_, distinct⟩,
      List.forall_mem_cons.mpr ⟨notOld, ?_⟩⟩
    · exact fun isNew => apart key isNew (List.mem_append_right _
        (List.mem_singleton_self key))
    · exact fun other isNew isOld =>
        apart other isNew (List.mem_append_left _ isOld)

theorem fresh_singleton
    {before : List κ}
    {key : κ}
    (notIn : key ∉ before) :
    Fresh before [key] :=
  fresh_cons.mpr ⟨notIn, fresh_nil _⟩

theorem Fresh.nodup_append
    {before new : List κ}
    (fresh : Fresh before new)
    (distinct : before.Nodup) :
    (before ++ new).Nodup :=
  distinct.append fresh.distinct fun key isOld isNew =>
    fresh.apart key isNew isOld

variable [DecidableEq κ]

/-- `table[key] = value`: an entry with the key is replaced. -/
def enter (entries : List (κ × ν)) (entry : κ × ν) : List (κ × ν) :=
  if entry.1 ∈ keys entries then
    entries.map fun other => if other.1 = entry.1 then entry else other
  else
    entries ++ [entry]

theorem keys_enter
    (entries : List (κ × ν))
    (entry : κ × ν) :
    keys (enter entries entry) =
      if entry.1 ∈ keys entries then keys entries
      else keys entries ++ [entry.1] := by
  rw [enter]
  split
  · rw [keys, keys, List.map_map]
    apply List.map_congr_left
    intro other _
    rw [Function.comp_apply]
    split
    · rename_i same
      exact same.symm
    · rfl
  · rw [keys_append, keys_cons, keys_nil]

theorem nodup_keys_enter
    {entries : List (κ × ν)}
    (distinct : (keys entries).Nodup)
    (entry : κ × ν) :
    (keys (enter entries entry)).Nodup := by
  rw [keys_enter]
  split
  · exact distinct
  · rename_i notIn
    exact (fresh_singleton notIn).nodup_append distinct

theorem length_enter
    (entries : List (κ × ν))
    (entry : κ × ν) :
    (enter entries entry).length =
      if entry.1 ∈ keys entries then entries.length else entries.length + 1 := by
  rw [enter]
  split
  · exact List.length_map _
  · rw [List.length_append, List.length_singleton]

theorem length_foldl_enter_le
    (new entries : List (κ × ν)) :
    (new.foldl enter entries).length ≤ entries.length + new.length := by
  induction new generalizing entries with
  | nil =>
      exact Nat.le_refl _
  | cons entry new inductionHypothesis =>
      have later := inductionHypothesis (enter entries entry)
      have length := length_enter entries entry
      rw [List.foldl_cons, List.length_cons]
      split at length <;> omega

/-- Exactly new keys with one entry each are appended. -/
theorem foldl_enter_eq_append_iff
    (new entries : List (κ × ν)) :
    new.foldl enter entries = entries ++ new ↔
      Fresh (keys entries) (keys new) := by
  induction new generalizing entries with
  | nil =>
      exact ⟨fun _ => fresh_nil _, fun _ => (List.append_nil _).symm⟩
  | cons entry new inductionHypothesis =>
      rw [List.foldl_cons, keys_cons, fresh_cons]
      by_cases isIn : entry.1 ∈ keys entries
      · constructor
        · intro appended
          have short := length_foldl_enter_le new (enter entries entry)
          rw [appended, length_enter, if_pos isIn, List.length_append,
            List.length_cons] at short
          omega
        · exact fun fresh => absurd isIn fresh.1
      · have entered : enter entries entry = entries ++ [entry] := if_neg isIn
        have whole : entries ++ entry :: new = entries ++ [entry] ++ new := by
          simp
        rw [entered, whole, inductionHypothesis, keys_append, keys_cons, keys_nil]
        exact ⟨fun fresh => ⟨isIn, fresh⟩, And.right⟩

end KeyedTable
