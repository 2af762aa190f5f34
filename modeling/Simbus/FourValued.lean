import Mathlib

/-!
# Four-valued wired signals

A wire carries `0`, `1`, the unknown value `x`, or the released value `z`.
Several drivers share one wire.  `resolve` combines two drives and
`resolveAll` combines any number of them.  The resolution is also stated
without an order of combination, by `IsResolution`, and the two agree.
-/

namespace FourValued

-- Bundles have 2, 4, 8 or 16 wires; their numerals share these proofs.
instance twoWires : NeZero 2 := ⟨by decide⟩

instance fourWires : NeZero 4 := ⟨by decide⟩

instance eightWires : NeZero 8 := ⟨by decide⟩

instance sixteenWires : NeZero 16 := ⟨by decide⟩

/-- The value of one driver, or of the wire it drives. -/
inductive Logic4 where
  | zero
  | one
  | x
  | z
  deriving Repr, DecidableEq

/-- Drive a Boolean level. -/
def Logic4.ofBool : Bool → Logic4
  | false => .zero
  | true => .one

@[simp] theorem Logic4.ofBool_eq_one
    (level : Bool) :
    Logic4.ofBool level = .one ↔ level = true := by
  cases level <;> simp [Logic4.ofBool]

@[simp] theorem Logic4.ofBool_ne_z
    (level : Bool) :
    Logic4.ofBool level ≠ .z := by
  cases level <;> simp [Logic4.ofBool]

/-- Two drives on one wire: a release yields, agreement stands, conflict is `x`. -/
def resolve (first second : Logic4) : Logic4 :=
  match first, second with
  | .z, other => other
  | other, .z => other
  | driven, other => if driven = other then driven else .x

@[simp] theorem resolve_z_left
    (drive : Logic4) :
    resolve .z drive = drive := by
  cases drive <;> rfl

@[simp] theorem resolve_z_right
    (drive : Logic4) :
    resolve drive .z = drive := by
  cases drive <;> rfl

@[simp] theorem resolve_self
    (drive : Logic4) :
    resolve drive drive = drive := by
  cases drive <;> rfl

theorem resolve_comm
    (first second : Logic4) :
    resolve first second = resolve second first := by
  cases first <;> cases second <;> rfl

theorem resolve_assoc
    (first second third : Logic4) :
    resolve (resolve first second) third =
      resolve first (resolve second third) := by
  cases first <;> cases second <;> cases third <;> rfl

/-- Two values that both drive the wire and differ resolve to `x`. -/
theorem resolve_conflict
    {first second : Logic4}
    (firstDrives : first ≠ .z)
    (secondDrives : second ≠ .z)
    (differ : first ≠ second) :
    resolve first second = .x := by
  revert firstDrives secondDrives differ
  cases first <;> cases second <;> decide

/-- The wire value of a list of drives. -/
def resolveAll (drives : List Logic4) : Logic4 :=
  drives.foldl resolve .z

@[simp] theorem resolveAll_nil :
    resolveAll [] = .z :=
  rfl

/-- Folding from a value already on the wire adds that value as one more drive. -/
theorem foldl_resolve
    (drives : List Logic4)
    (value : Logic4) :
    drives.foldl resolve value = resolve value (resolveAll drives) := by
  induction drives generalizing value with
  | nil =>
      simp
  | cons drive rest inductionHypothesis =>
      simp only [resolveAll, List.foldl_cons, resolve_z_left]
      rw [inductionHypothesis, inductionHypothesis drive,
        resolve_assoc]

@[simp] theorem resolveAll_cons
    (drive : Logic4)
    (rest : List Logic4) :
    resolveAll (drive :: rest) =
      resolve drive (resolveAll rest) := by
  simpa [resolveAll] using foldl_resolve rest drive

/-- The order of the drivers does not matter. -/
theorem resolveAll_perm
    {first second : List Logic4}
    (permuted : first.Perm second) :
    resolveAll first = resolveAll second := by
  induction permuted with
  | nil =>
      rfl
  | cons drive _ inductionHypothesis =>
      simp [inductionHypothesis]
  | swap first second rest =>
      simp only [resolveAll_cons]
      rw [← resolve_assoc, ← resolve_assoc,
        resolve_comm second first]
  | trans _ _ firstHypothesis secondHypothesis =>
      exact firstHypothesis.trans secondHypothesis

/--
The resolution of a set of drives, with no order of combination: `z` if nobody
drives, the common value of the drivers if they agree, and `x` otherwise.
-/
inductive IsResolution (drives : List Logic4) : Logic4 → Prop where
  | released :
      (∀ drive ∈ drives, drive = .z) →
      IsResolution drives .z
  | agreed {value : Logic4} :
      value ≠ .z →
      value ∈ drives →
      (∀ drive ∈ drives, drive = .z ∨ drive = value) →
      IsResolution drives value
  | conflict {first second : Logic4} :
      first ∈ drives →
      second ∈ drives →
      first ≠ .z →
      second ≠ .z →
      first ≠ second →
      IsResolution drives .x

/-- Adding one drive keeps the resolution of the remaining drives resolved. -/
theorem IsResolution.cons
    {rest : List Logic4}
    {value : Logic4}
    (resolution : IsResolution rest value)
    (drive : Logic4) :
    IsResolution (drive :: rest) (resolve drive value) := by
  by_cases released : drive = .z
  · subst drive
    simp only [resolve_z_left]
    cases resolution with
    | released none =>
        exact .released (by simpa using none)
    | agreed drives member agree =>
        exact .agreed drives (by simp [member]) (by simpa using agree)
    | conflict firstMember secondMember firstDrives secondDrives differ =>
        exact .conflict
          (by simp [firstMember]) (by simp [secondMember])
          firstDrives secondDrives differ
  · cases resolution with
    | released none =>
        simp only [resolve_z_right]
        exact .agreed released (by simp) fun other member =>
          (List.mem_cons.mp member).elim .inr
            (fun inRest => .inl (none other inRest))
    | @agreed _ drives member agree =>
        by_cases same : drive = value
        · subst drive
          simp only [resolve_self]
          exact .agreed released (by simp) (by simpa using agree)
        · rw [resolve_conflict released drives same]
          exact .conflict (by simp) (by simp [member])
            released drives same
    | @conflict first second firstMember secondMember
        firstDrives secondDrives differ =>
        have unknown : resolve drive .x = .x := by
          revert released
          cases drive <;> decide
        rw [unknown]
        exact .conflict
          (by simp [firstMember]) (by simp [secondMember])
          firstDrives secondDrives differ

/-- The fold computes the order-free resolution. -/
theorem isResolution_resolveAll
    (drives : List Logic4) :
    IsResolution drives (resolveAll drives) := by
  induction drives with
  | nil =>
      exact .released (by simp)
  | cons drive rest inductionHypothesis =>
      rw [resolveAll_cons]
      exact inductionHypothesis.cons drive

/-- A set of drives has one resolution only. -/
theorem IsResolution.unique
    {drives : List Logic4}
    {first second : Logic4}
    (firstResolution : IsResolution drives first)
    (secondResolution : IsResolution drives second) :
    first = second := by
  cases firstResolution <;> cases secondResolution <;> grind

theorem IsResolution.eq_resolveAll
    {drives : List Logic4}
    {value : Logic4}
    (resolution : IsResolution drives value) :
    value = resolveAll drives :=
  resolution.unique (isResolution_resolveAll drives)

/-- Drives that all release, or repeat one driven value, resolve to that value. -/
theorem resolveAll_of_agree
    {drives : List Logic4}
    {value : Logic4}
    (member : value ∈ drives)
    (agree : ∀ drive ∈ drives, drive = .z ∨ drive = value) :
    resolveAll drives = value := by
  by_cases released : value = .z
  · subst value
    exact (IsResolution.released (by simpa using agree)).eq_resolveAll.symm
  · exact (IsResolution.agreed released member agree).eq_resolveAll.symm

theorem resolveAll_of_released
    {drives : List Logic4}
    (released : ∀ drive ∈ drives, drive = .z) :
    resolveAll drives = .z :=
  (IsResolution.released released).eq_resolveAll.symm

/-- A driver that disagrees with the wire value leaves the wire unknown. -/
theorem resolve_member_resolveAll
    {drives : List Logic4}
    {drive : Logic4}
    (member : drive ∈ drives) :
    resolve drive (resolveAll drives) = resolveAll drives := by
  induction drives with
  | nil =>
      simp at member
  | cons head rest inductionHypothesis =>
      rw [resolveAll_cons]
      rcases List.mem_cons.mp member with isHead | inRest
      · subst head
        rw [← resolve_assoc, resolve_self]
      · rw [← resolve_assoc, resolve_comm drive head, resolve_assoc,
          inductionHypothesis inRest]

end FourValued
