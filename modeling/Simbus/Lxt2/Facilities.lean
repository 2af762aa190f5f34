import Simbus.InPlaceMerge
import Simbus.Lxt2.Section
import Simbus.Lxt2.Stream
import Mathlib

/-!
# The facilities of an LXT2 trace

The facilities are found by their names in a table of chains.  Their names are
written in order, each without what it shares with the one before, and their
shapes in the same order.
-/

set_option autoImplicit false

namespace Simbus.Lxt2

open ByteFormat

/-- `LXT2_WR_SYM_F_BITS` and `LXT2_WR_SYM_F_STRING`. -/
inductive Kind where
  | bits
  | string
  deriving DecidableEq

/-- The flag of a kind. -/
def Kind.flags : Kind → Nat
  | .bits => 0
  | .string => 1 <<< 2

/-- The kind with a flag. -/
def Kind.ofFlags (flags : Nat) : Kind :=
  if flags = 0 then .bits else .string

@[simp] theorem ofFlags_flags (kind : Kind) : Kind.ofFlags kind.flags = kind := by
  cases kind <;> rfl

/-- What is fixed about a facility; `msb` and `lsb` are C `int`s. -/
structure Facility where
  name : Text
  rows : BitVec 32
  msb : BitVec 32
  lsb : BitVec 32
  kind : Kind
  deriving DecidableEq

/-- `len` of a symbol, which a string does not have. -/
def Facility.len (facility : Facility) : Nat :=
  match facility.kind with
  | .bits =>
      if facility.msb.toInt < facility.lsb.toInt then
        (facility.lsb.toInt - facility.msb.toInt + 1).toNat
      else
        (facility.msb.toInt - facility.lsb.toInt + 1).toNat
  | .string => 0

/-- The length of a facility and the size of its value are C `int`s. -/
def Facility.InRange (facility : Facility) : Prop :=
  facility.len + 1 < 2 ^ 31

instance (facility : Facility) : Decidable facility.InRange :=
  inferInstanceAs (Decidable (facility.len + 1 < 2 ^ 31))

/-! ## The symbol table -/

/-- `LXT2_WR_SYMPRIME`. -/
def symprime : Nat := 500009

/-- One character of `lxt2_wr_hash`: `h`, `h2` and `pos`. -/
def hashStep
    (state : BitVec 32 × BitVec 32 × BitVec 32)
    (ch : Char) : BitVec 32 × BitVec 32 × BitVec 32 :=
  let (h, h2, pos) := state
  let value := (BitVec.ofNat 8 ch.toNat).signExtend 32
  let h2 := h2 <<< 3 - (value + pos)
  let h := h <<< 4 + value
  let g := h &&& 0xf0000000
  (if g ≠ 0 then (h ^^^ (g >>> 24)) ^^^ g else h, h2, pos + 1)

/-- `lxt2_wr_hash`. -/
def hash (name : Text) : Nat :=
  let (h, h2, _) := name.foldl hashStep (0, 0, 0)
  (h ^^^ h2).toNat % symprime

/-- The chains of the symbols, the newest one first. -/
abbrev SymTable : Type := Nat → List Nat

/-- `lxt2_wr_symadd`. -/
def SymTable.add (sym : SymTable) (name : Text) (handle : Nat) : SymTable :=
  Function.update sym (hash name) (handle :: sym (hash name))

/-- `lxt2_wr_symfind`; a symbol is its place in the order of addition. -/
def symfind (sym : SymTable) (names : List Text) (name : Text) : Option Nat :=
  (sym (hash name)).find? fun handle => names[handle]? = some name

/-- Every symbol is in the chain of its name, and nothing else is there. -/
def SymTable.Holds (sym : SymTable) (names : List Text) : Prop :=
  ∀ chain handle, handle ∈ sym chain ↔
    ∃ name, names[handle]? = some name ∧ hash name = chain

theorem holds_empty : SymTable.Holds (fun _ => []) [] := by
  intro chain handle
  simp

/-- A symbol is found exactly where one has been added under the name. -/
theorem symfind_eq_none_iff
    {sym : SymTable}
    {names : List Text}
    (holds : sym.Holds names)
    (name : Text) :
    symfind sym names name = none ↔ name ∉ names := by
  rw [symfind, List.find?_eq_none]
  constructor
  · intro none member
    obtain ⟨handle, isName⟩ := List.mem_iff_getElem?.mp member
    have inChain := (holds (hash name) handle).mpr ⟨name, isName, rfl⟩
    exact none handle inChain (decide_eq_true isName)
  · intro notMember handle _ isName
    exact notMember (List.mem_of_getElem? (of_decide_eq_true isName))

theorem symfind_eq_some
    {sym : SymTable}
    {names : List Text}
    {name : Text}
    {handle : Nat}
    (found : symfind sym names name = some handle) :
    names[handle]? = some name := by
  have isName := List.find?_some found
  exact of_decide_eq_true isName

/-- A name that is there once is found at its place. -/
theorem symfind_eq_idxOf?
    {sym : SymTable}
    {names : List Text}
    (holds : sym.Holds names)
    (distinct : names.Nodup)
    (name : Text) :
    symfind sym names name = names.idxOf? name := by
  cases found : symfind sym names name with
  | none =>
      have notThere := (symfind_eq_none_iff holds name).mp found
      exact (List.idxOf?_eq_none_iff.mpr notThere).symm
  | some handle =>
      have isName := symfind_eq_some found
      cases isFirst : names.idxOf? name with
      | none =>
          exact absurd (List.mem_of_getElem? isName)
            (List.idxOf?_eq_none_iff.mp isFirst)
      | some place =>
          obtain ⟨inside, isPlace, _⟩ := List.idxOf?_eq_some_iff.mp isFirst
          have isSame := (List.getElem?_eq_getElem inside).trans
            ((congrArg some isPlace).trans isName.symm)
          rw [(List.getElem?_inj inside distinct).mp isSame]

theorem SymTable.Holds.add
    {sym : SymTable}
    {names : List Text}
    (holds : sym.Holds names)
    (name : Text) :
    (sym.add name names.length).Holds (names ++ [name]) := by
  intro chain handle
  have isNew : ∀ other, (names ++ [name])[handle]? = some other ↔
      names[handle]? = some other ∨ handle = names.length ∧ name = other := by
    intro other
    rw [List.getElem?_append]
    split
    · rename_i inside
      constructor
      · exact .inl
      · rintro (isOld | ⟨rfl, _⟩)
        · exact isOld
        · exact absurd inside (Nat.lt_irrefl _)
    · rename_i outside
      rw [List.getElem?_eq_none (Nat.not_lt.mp outside),
        List.getElem?_singleton]
      simp
      omega
  simp only [isNew, or_and_right, exists_or, SymTable.add]
  by_cases isChain : chain = hash name
  · subst isChain
    rw [Function.update_self, List.mem_cons, holds]
    constructor
    · rintro (rfl | isOld)
      · exact .inr ⟨name, ⟨rfl, rfl⟩, rfl⟩
      · exact .inl isOld
    · rintro (isOld | ⟨_, ⟨rfl, rfl⟩, _⟩)
      · exact .inr isOld
      · exact .inl rfl
  · rw [Function.update_of_ne isChain, holds]
    constructor
    · exact .inl
    · rintro (isOld | ⟨_, ⟨rfl, rfl⟩, rfl⟩)
      · exact isOld
      · exact absurd rfl isChain

/-! ## Names -/

/-- How far two names agree, at most up to a limit. -/
def prefixLength : Nat → Text → Text → Nat
  | limit + 1, before :: old, ch :: new =>
      if before = ch then prefixLength limit old new + 1 else 0
  | _, _, _ => 0

/-- `lxt2_wr_compress_fac` behind the name before; there is none at first. -/
def compressFac (before : Option Text) (name : Text) : Nat × Text :=
  match before with
  | none => (0, name)
  | some old =>
      let shared := prefixLength 65535 old name
      (shared, name.drop shared)

/-- The bytes of a name behind the one before. -/
def facnameBytes (before : Option Text) (name : Text) : List UInt8 :=
  let (shared, rest) := compressFac before name
  bigEndian 2 shared ++ zeroEnded (textBytes rest)

/-- The bytes of names in their order. -/
def facnamesBytes : Option Text → List Text → List UInt8
  | _, [] => []
  | before, name :: names =>
      facnameBytes before name ++ facnamesBytes (some name) names

/-- Write a name. -/
def emitFacname
    (before : Option Text)
    (name : Text)
    (stream : GzStream) : Option GzStream :=
  let (shared, rest) := compressFac before name
  (stream.emitNumber 2 shared).bind (GzStream.emitStringz (textBytes rest))

/-- Write names in their order. -/
def emitFacnames : Option Text → List Text → GzStream → Option GzStream
  | _, [], stream => some stream
  | before, name :: names, stream =>
      (emitFacname before name stream).bind (emitFacnames (some name) names)

/-- Read names, each behind the one before. -/
def readFacnames : Nat → Text → Reader (List Text)
  | 0, _ => .pure []
  | count + 1, before =>
      (readNumber 2).bind fun shared =>
        readText.bind fun rest =>
          (readFacnames count (before.take shared ++ rest)).map
            ((before.take shared ++ rest) :: ·)

theorem prefixLength_spec (limit : Nat) (old new : Text) :
    prefixLength limit old new ≤ limit ∧
      old.take (prefixLength limit old new) =
        new.take (prefixLength limit old new) := by
  induction limit, old, new using prefixLength.induct with
  | case1 limit old ch new inductionHypothesis =>
      rw [prefixLength, if_pos rfl, List.take_succ_cons, List.take_succ_cons,
        inductionHypothesis.2]
      exact ⟨Nat.succ_le_succ inductionHypothesis.1, rfl⟩
  | case2 limit before old ch new differ =>
      rw [prefixLength, if_neg differ]
      exact ⟨Nat.zero_le _, rfl⟩
  | case3 limit old new none =>
      have isZero : prefixLength limit old new = 0 := by
        unfold prefixLength
        split
        · exact (none _ _ _ _ _ rfl rfl rfl).elim
        · rfl
      rw [isZero]
      exact ⟨Nat.zero_le _, rfl⟩

/-- What is shared with the name before and the rest make up a name. -/
theorem compressFac_spec (before : Option Text) (name : Text) :
    (compressFac before name).1 ≤ 65535 ∧
      (before.getD []).take (compressFac before name).1 ++
        (compressFac before name).2 = name := by
  cases before with
  | none =>
      exact ⟨Nat.zero_le _, rfl⟩
  | some old =>
      obtain ⟨bounded, same⟩ := prefixLength_spec 65535 old name
      refine ⟨bounded, ?_⟩
      change old.take (prefixLength 65535 old name) ++
        name.drop (prefixLength 65535 old name) = name
      rw [same, List.take_append_drop]

theorem compressFac_isCString
    {before : Option Text}
    {name : Text}
    (isCString : IsCString name) :
    IsCString (compressFac before name).2 := by
  cases before with
  | none =>
      exact isCString
  | some old =>
      intro ch member
      exact isCString ch (List.mem_of_mem_drop member)

/-- Names are read as they were, each from the one before. -/
theorem reads_facnames
    {names : List Text}
    (cStrings : ∀ name ∈ names, IsCString name)
    (before : Option Text) :
    Reads (readFacnames names.length (before.getD []))
      (facnamesBytes before names) names := by
  induction names generalizing before with
  | nil =>
      exact .pure []
  | cons name names inductionHypothesis =>
      rw [List.forall_mem_cons] at cStrings
      obtain ⟨bounded, whole⟩ := compressFac_spec before name
      have fits : (compressFac before name).1 < 256 ^ 2 :=
        Nat.lt_succ_of_le bounded
      have readsNames := inductionHypothesis cStrings.2 (some name)
      rw [facnamesBytes, facnameBytes, List.append_assoc]
      apply (reads_number fits).bind
      apply (reads_text (compressFac_isCString cStrings.1)).bind
      rw [whole]
      exact readsNames.map (name :: ·)

theorem emitFacname_emits (before : Option Text) (name : Text) :
    GzStream.Emits (emitFacname before name) (facnameBytes before name) :=
  (GzStream.emitNumber_emits (by decide) _).andThen
    (GzStream.emitStringz_emits _)

theorem emitFacnames_emits (before : Option Text) (names : List Text) :
    GzStream.Emits (emitFacnames before names) (facnamesBytes before names) := by
  induction names generalizing before with
  | nil =>
      exact .nil
  | cons name names inductionHypothesis =>
      exact (emitFacname_emits before name).andThen (inductionHypothesis _)

/-! ## Shapes -/

/-- The bytes of the shape of a facility. -/
def geometryBytes (facility : Facility) : List UInt8 :=
  bigEndian 4 facility.rows.toNat ++ (bigEndian 4 facility.msb.toNat ++
    (bigEndian 4 facility.lsb.toNat ++ bigEndian 4 facility.kind.flags))

/-- Write the shape of a facility. -/
def emitGeometry (facility : Facility) (stream : GzStream) : Option GzStream :=
  (stream.emitNumber 4 facility.rows.toNat).bind fun stream =>
    (stream.emitNumber 4 facility.msb.toNat).bind fun stream =>
      (stream.emitNumber 4 facility.lsb.toNat).bind fun stream =>
        stream.emitNumber 4 facility.kind.flags

/-- Read the shape of a facility with some name. -/
def readGeometry (name : Text) : Reader Facility :=
  (readNumber 4).bind fun rows =>
    (readNumber 4).bind fun msb =>
      (readNumber 4).bind fun lsb =>
        (readNumber 4).map fun flags =>
          ⟨name, BitVec.ofNat 32 rows, BitVec.ofNat 32 msb, BitVec.ofNat 32 lsb,
            Kind.ofFlags flags⟩

theorem reads_geometry (facility : Facility) :
    Reads (readGeometry facility.name) (geometryBytes facility) facility := by
  have fits (word : BitVec 32) : word.toNat < 256 ^ 4 := word.isLt
  have flagsFit : facility.kind.flags < 256 ^ 4 := by
    cases facility.kind <;> decide
  have same (word : BitVec 32) : BitVec.ofNat 32 word.toNat = word := by
    rw [BitVec.ofNat_toNat, BitVec.setWidth_eq]
  have reads : Reads (readGeometry facility.name) (geometryBytes facility)
      ⟨facility.name, BitVec.ofNat 32 facility.rows.toNat,
        BitVec.ofNat 32 facility.msb.toNat, BitVec.ofNat 32 facility.lsb.toNat,
        Kind.ofFlags facility.kind.flags⟩ := by
    apply (reads_number (fits facility.rows)).bind
    apply (reads_number (fits facility.msb)).bind
    apply (reads_number (fits facility.lsb)).bind
    exact (reads_number flagsFit).map _
  rwa [same, same, same, ofFlags_flags] at reads

theorem emitGeometry_emits (facility : Facility) :
    GzStream.Emits (emitGeometry facility) (geometryBytes facility) := by
  have narrow : 4 ≤ 4 := Nat.le_refl 4
  exact (GzStream.emitNumber_emits narrow _).andThen
    ((GzStream.emitNumber_emits narrow _).andThen
      ((GzStream.emitNumber_emits narrow _).andThen
        (GzStream.emitNumber_emits narrow _)))

/-! ## The facilities of a file -/

/-- What `lxt2_wr_emitfacs` writes, the compressed parts as they are before. -/
structure FacHeader where
  numfacs : Nat
  numfacbytes : Nat
  longestname : Nat
  zfacnamePredecSize : Nat
  facnames : List UInt8
  geometry : List UInt8

/-- `strcmp` of the names of two symbols. -/
def nameLe (names : List Text) (i j : Nat) : Bool :=
  decide (names.getD i [] ≤ names.getD j [])

/-- The order in which `wave_msort` puts the symbols. -/
def waveMsort (names : List Text) : Option (List Nat) :=
  (InPlaceMerge.mergesort (nameLe names) names.length (List.range names.length)
    (List.replicate (names.length / 2 + 1) 0) 0 (names.length - 1)).map Prod.fst

/-- The symbols are sorted by their names without an access outside of the arrays. -/
theorem waveMsort_eq
    {names : List Text}
    (someNames : names ≠ []) :
    waveMsort names =
      some ((List.range names.length).mergeSort (nameLe names)) := by
  have positive : 0 < names.length := List.length_pos_iff.mpr someNames
  obtain ⟨b', _, sorted⟩ := @InPlaceMerge.mergesort_eq Nat (nameLe names) []
    (List.range names.length) [] (List.replicate (names.length / 2 + 1) 0)
    names.length (names.length - 1)
    (by rw [List.length_range, List.length_nil]; omega)
    (by rw [List.length_range, List.length_replicate]; omega)
    (by rw [List.length_range]) positive
  rw [List.nil_append, List.append_nil, List.length_nil] at sorted
  rw [waveMsort, sorted, List.nil_append, List.append_nil]
  rfl

theorem waveMsort_sorted
    {names : List Text}
    {sorted : List Nat}
    (isSorted : waveMsort names = some sorted) :
    sorted.Perm (List.range names.length) ∧
      sorted.Pairwise fun i j => names.getD i [] ≤ names.getD j [] := by
  by_cases someNames : names = []
  · subst someNames
    cases isSorted
  · rw [waveMsort_eq someNames] at isSorted
    obtain rfl := Option.some.inj isSorted
    refine ⟨List.mergeSort_perm _ _, ?_⟩
    have ordered := @List.pairwise_mergeSort Nat (nameLe names)
      (fun i j k before after => decide_eq_true
        ((of_decide_eq_true before).trans (of_decide_eq_true after)))
      (fun i j => by
        rw [nameLe, nameLe, Bool.or_eq_true, decide_eq_true_eq, decide_eq_true_eq]
        exact le_total _ _)
      (List.range names.length)
    exact ordered.imp of_decide_eq_true

end Simbus.Lxt2
