import Mathlib

/-!
# Value changes in an LXT2 trace

A new value of a facility is written as one code: a number of the dictionary of
strings, or one of a few codes that say how the value follows from the old one.
A reader that knows the old value and the dictionary gets the new value back.
-/

set_option autoImplicit false

namespace Simbus.Lxt2

/-- A C string, without the NUL at its end. -/
abbrev Text : Type := List Char

/-- `LXT2_WR_Encodings`. -/
inductive Encoding where
  | zero
  | one
  | inv
  | lsh0
  | lsh1
  | rsh0
  | rsh1
  | add1
  | add2
  | add3
  | add4
  | sub1
  | sub2
  | sub3
  | sub4
  | x
  | z
  | blackout
  | dict (entry : Nat)
  deriving DecidableEq

/-- `LXT2_WR_DICT_START`. -/
def dictStart : Nat := 18

/-- The number of an encoding. -/
def Encoding.code : Encoding → Nat
  | .zero => 0
  | .one => 1
  | .inv => 2
  | .lsh0 => 3
  | .lsh1 => 4
  | .rsh0 => 5
  | .rsh1 => 6
  | .add1 => 7
  | .add2 => 8
  | .add3 => 9
  | .add4 => 10
  | .sub1 => 11
  | .sub2 => 12
  | .sub3 => 13
  | .sub4 => 14
  | .x => 15
  | .z => 16
  | .blackout => 17
  | .dict entry => entry + dictStart

/-- The encoding with a number. -/
def Encoding.ofCode : Nat → Encoding
  | 0 => .zero
  | 1 => .one
  | 2 => .inv
  | 3 => .lsh0
  | 4 => .lsh1
  | 5 => .rsh0
  | 6 => .rsh1
  | 7 => .add1
  | 8 => .add2
  | 9 => .add3
  | 10 => .add4
  | 11 => .sub1
  | 12 => .sub2
  | 13 => .sub3
  | 14 => .sub4
  | 15 => .x
  | 16 => .z
  | 17 => .blackout
  | entry + 18 => .dict entry

@[simp] theorem ofCode_code (encoding : Encoding) :
    Encoding.ofCode encoding.code = encoding := by
  cases encoding <;> rfl

/-! ## The width of a value -/

/-- What a value is filled up with on the left, as in a VCD file. -/
def leftFill : Text → Char
  | [] => '0'
  | first :: _ => if first ≠ '1' then first else '0'

/-- A value filled up on the left, or cut off, to a number of characters. -/
def fixWidth (len : Nat) (value : Text) : Text :=
  if value.length < len then
    List.replicate (len - value.length) (leftFill value) ++ value
  else
    value.take len

/-- A letter in lower case. -/
def lowerCase (ch : Char) : Char :=
  if 'A' ≤ ch ∧ ch ≤ 'Z' then Char.ofNat (ch.toNat + 32) else ch

/-- The value that `lxt2_wr_emit_value_bit_string` works with. -/
def normalize (len : Nat) (value : Text) : Text :=
  (fixWidth len value).map lowerCase

@[simp] theorem length_fixWidth (len : Nat) (value : Text) :
    (fixWidth len value).length = len := by
  rw [fixWidth]
  split
  · rw [List.length_append, List.length_replicate]
    omega
  · rw [List.length_take]
    omega

@[simp] theorem length_normalize (len : Nat) (value : Text) :
    (normalize len value).length = len := by
  rw [normalize, List.length_map, length_fixWidth]

/-- No letter is in upper case. -/
def LowerCase (value : Text) : Prop :=
  ∀ ch ∈ value, ¬('A' ≤ ch ∧ ch ≤ 'Z')

theorem lowerCase_not_upper (ch : Char) :
    ¬('A' ≤ lowerCase ch ∧ lowerCase ch ≤ 'Z') := by
  rw [lowerCase]
  split
  · rename_i isUpper
    obtain ⟨low, high⟩ := isUpper
    have lowNat : 65 ≤ ch.toNat := low
    have highNat : ch.toNat ≤ 90 := high
    rintro ⟨_, below⟩
    have belowNat : (Char.ofNat (ch.toNat + 32)).toNat ≤ 90 := below
    have valid : (ch.toNat + 32).isValidChar := .inl (by omega)
    rw [Char.ofNat, dif_pos valid] at belowNat
    change ch.toNat + 32 ≤ 90 at belowNat
    omega
  · assumption

theorem normalize_lowerCase (len : Nat) (value : Text) :
    LowerCase (normalize len value) := by
  intro ch member
  obtain ⟨old, _, rfl⟩ := List.mem_map.mp member
  exact lowerCase_not_upper old

/-! ## Strings for the dictionary -/

/-- The rest of the loop of `lxt2_wr_vcd_truncate_bitvec` behind a character. -/
def truncateAfter (last : Char) : Text → Text
  | [] => [last]
  | ch :: rest =>
      if last ≠ ch then
        if last = '0' ∧ ch = '1' then ch :: rest else last :: ch :: rest
      else
        truncateAfter ch rest

/-- `lxt2_wr_vcd_truncate_bitvec`: leave out what filling up on the left gives back. -/
def vcdTruncateBitvec : Text → Text
  | [] => []
  | first :: rest =>
      if first = '1' then first :: rest else truncateAfter first rest

/-- What is left out are copies of the fill. -/
theorem truncateAfter_spec
    {last : Char}
    (notOne : last ≠ '1')
    (rest : Text) :
    ∃ count, last :: rest =
        List.replicate count last ++ truncateAfter last rest ∧
      leftFill (truncateAfter last rest) = last := by
  induction rest with
  | nil =>
      exact ⟨0, rfl, if_pos notOne⟩
  | cons ch rest inductionHypothesis =>
      rw [truncateAfter]
      split
      · split
        · rename_i isStep
          obtain ⟨rfl, rfl⟩ := isStep
          exact ⟨1, rfl, rfl⟩
        · exact ⟨0, rfl, if_pos notOne⟩
      · rename_i same
        obtain rfl : last = ch := not_not.mp same
        obtain ⟨count, isText, isFill⟩ := inductionHypothesis
        refine ⟨count + 1, ?_, isFill⟩
        rw [List.replicate_succ, List.cons_append, ← isText]

/-- A truncated value is filled up to the same value. -/
theorem fixWidth_vcdTruncateBitvec (value : Text) :
    fixWidth value.length (vcdTruncateBitvec value) = value := by
  cases value with
  | nil =>
      rfl
  | cons first rest =>
      rw [vcdTruncateBitvec]
      split
      · rw [fixWidth, if_neg (lt_irrefl _), List.take_length]
      · rename_i notOne
        obtain ⟨count, isText, isFill⟩ := truncateAfter_spec notOne rest
        have lengths := congrArg List.length isText
        rw [List.length_append, List.length_replicate] at lengths
        rw [fixWidth]
        split
        · have fills : (first :: rest).length -
              (truncateAfter first rest).length = count := by
            omega
          rw [isFill, fills, ← isText]
        · obtain rfl : count = 0 := by omega
          rw [List.replicate_zero, List.nil_append] at isText
          rw [isText, List.take_length]

/-! ## Binary numbers -/

/-- All characters are 0 or 1. -/
def Binary (text : Text) : Prop :=
  ∀ ch ∈ text, ch = '0' ∨ ch = '1'

/-- The number that a binary text stands for. -/
def number (text : Text) : Nat :=
  text.foldl (fun value ch => 2 * value + if ch = '1' then 1 else 0) 0

/-- The lowest digits of a number. -/
def binaryText : Nat → Nat → Text
  | 0, _ => []
  | len + 1, value =>
      binaryText len (value / 2) ++ [if value % 2 = 1 then '1' else '0']

/-- `intval_old` and `intval_new`, where all characters are 0 or 1. -/
def binaryValue (text : Text) : Option (BitVec 32) :=
  text.foldlM
    (fun value ch =>
      if ch = '0' then
        some (value <<< 1)
      else if ch = '1' then
        some (value <<< 1 ||| 1)
      else
        none)
    0

theorem number_concat (text : Text) (ch : Char) :
    number (text ++ [ch]) = 2 * number text + if ch = '1' then 1 else 0 := by
  rw [number, List.foldl_append]
  rfl

theorem number_lt (text : Text) : number text < 2 ^ text.length := by
  induction text using List.reverseRecOn with
  | nil =>
      exact Nat.one_pos
  | append_singleton text ch inductionHypothesis =>
      rw [number_concat, List.length_append, List.length_singleton,
        Nat.pow_succ]
      split <;> omega

/-- The digits of the number of a binary text are the text. -/
theorem binaryText_number
    {text : Text}
    (binary : Binary text) :
    binaryText text.length (number text) = text := by
  induction text using List.reverseRecOn with
  | nil =>
      rfl
  | append_singleton text ch inductionHypothesis =>
      have isBit := binary ch (by simp)
      have isRest := inductionHypothesis fun other member =>
        binary other (by simp [member])
      rw [List.length_append, List.length_singleton, binaryText, number_concat]
      rcases isBit with rfl | rfl
      · rw [if_neg (by decide), Nat.add_zero, Nat.mul_div_cancel_left _ (by decide),
          isRest, Nat.mul_mod_right]
        rfl
      · rw [if_pos rfl, Nat.mul_add_div (by decide), Nat.mul_add_mod,
          Nat.div_eq_of_lt (by decide), Nat.add_zero, isRest]
        rfl

/-- The words that the writer compares are the numbers of binary texts. -/
theorem binaryValue_spec
    {text : Text}
    {value : BitVec 32}
    (isValue : binaryValue text = some value) :
    Binary text ∧ value.toNat = number text % 2 ^ 32 := by
  induction text using List.reverseRecOn generalizing value with
  | nil =>
      obtain rfl : 0 = value := Option.some.inj isValue
      exact ⟨nofun, rfl⟩
  | append_singleton text ch inductionHypothesis =>
      rw [binaryValue, List.foldlM_append, Option.bind_eq_bind,
        Option.bind_eq_some_iff] at isValue
      obtain ⟨before, isBefore, isLast⟩ := isValue
      obtain ⟨binary, isNumber⟩ := inductionHypothesis isBefore
      have shifted : (before <<< 1).toNat = 2 * number text % 2 ^ 32 := by
        rw [BitVec.toNat_shiftLeft, Nat.shiftLeft_eq, isNumber]
        omega
      have isBit : ∀ bit, ch = bit → bit = '0' ∨ bit = '1' →
          Binary (text ++ [ch]) := by
        rintro bit rfl isDigit other member
        rcases List.mem_append.mp member with inText | isLast
        · exact binary other inText
        · rwa [List.mem_singleton.mp isLast]
      rw [List.foldlM_cons] at isLast
      split at isLast
      · rename_i isZero
        obtain rfl : before <<< 1 = value := Option.some.inj isLast
        refine ⟨isBit _ isZero (.inl rfl), ?_⟩
        rw [shifted, number_concat, isZero]
        rfl
      · rename_i notZero
        split at isLast
        · rename_i isOne
          obtain rfl : before <<< 1 ||| 1 = value := Option.some.inj isLast
          refine ⟨isBit _ isOne (.inr rfl), ?_⟩
          have added : (before <<< 1 ||| 1#32) = before <<< 1 + 1#32 := by
            refine (BitVec.add_eq_or_of_and_eq_zero _ _ ?_).symm
            ext place inside
            simp
            omega
          change (before <<< 1 ||| 1#32).toNat = _
          rw [added, BitVec.toNat_add, shifted, number_concat, if_pos isOne]
          change (2 * number text % 2 ^ 32 + 1) % 2 ^ 32 = _
          omega
        · cases isLast

/-! ## The choice of an encoding -/

/-- The encoding of many equal characters; without one `idx` is -1. -/
def copiesEncoding (prevch : Char) : Option Encoding :=
  match prevch with
  | '0' => some .zero
  | '1' => some .one
  | 'X' | 'x' => some .x
  | 'Z' | 'z' => some .z
  | _ => none

/-- The encoding of a value all of whose characters agree. -/
def uniformEncoding : Text → Option Encoding
  | [] => none
  | prevch :: rest =>
      if rest.all (· = prevch) then copiesEncoding prevch else none

/-- Every character of a value is the opposite digit of the old one. -/
def isInverse (old new : Text) : Bool :=
  (old.zip new).all fun (before, after) =>
    (after = '0' && before = '1') || (after = '1' && before = '0')

/-- The encoding of a value that is shifted by one place. -/
def shiftEncoding (old new : Text) : Option Encoding :=
  if old.tail = new.dropLast then
    match new.getLast? with
    | some '0' => some .lsh0
    | some '1' => some .lsh1
    | _ => none
  else if old.dropLast = new.tail then
    match new.head? with
    | some '0' => some .rsh0
    | some '1' => some .rsh1
    | _ => none
  else
    none

/-- The differences that are tried, in their order. -/
def steps (len : Nat) : List (Int × Encoding) :=
  [(1, .add1), (-1, .sub1), (2, .add2), (-2, .sub2), (3, .add3), (-3, .sub3)] ++
    if 2 < len then [(4, .add4), (-4, .sub4)] else []

/-- The encoding of a value that differs by a small number. -/
def stepEncoding (old new : Text) : Option Encoding := do
  guard (new.length ≤ 32)
  let intvalNew ← binaryValue new
  let intvalOld ← binaryValue old
  -- The shift of the signed -1 fills up with ones, whatever the width.
  let msk := (BitVec.allOnes 32).sshiftRight (32 - new.length)
  let step ← (steps new.length).find? fun (amount, _) =>
    (intvalOld + BitVec.ofInt 32 amount) &&& msk = intvalNew
  some step.2

/-- The encoding of a value by its old value. -/
def relativeEncoding (old new : Text) : Option Encoding :=
  if isInverse old new then
    some .inv
  else if 1 < new.length then
    (shiftEncoding old new).or (stepEncoding old new)
  else
    none

/-- The encoding of a value without the dictionary; old values count only `later`. -/
def shortEncoding (later : Bool) (old new : Text) : Option Encoding :=
  (if later then relativeEncoding old new else none).or (uniformEncoding new)

/-! ## Reading a change -/

/-- The opposite digit. -/
def opposite (ch : Char) : Char :=
  if ch = '0' then '1' else '0'

/-- The digits of a number some steps on from a binary text. -/
def stepBy (len : Nat) (amount : Int) (old : Text) : Text :=
  binaryText len (((number old : Int) + amount) % 2 ^ len).toNat

/-- The value of some bits behind a change. -/
def Encoding.apply
    (strings : List Text)
    (len : Nat)
    (old : Text) : Encoding → Option Text
  | .zero => some (List.replicate len '0')
  | .one => some (List.replicate len '1')
  | .inv => some (old.map opposite)
  | .lsh0 => some (old.tail ++ ['0'])
  | .lsh1 => some (old.tail ++ ['1'])
  | .rsh0 => some ('0' :: old.dropLast)
  | .rsh1 => some ('1' :: old.dropLast)
  | .add1 => some (stepBy len 1 old)
  | .add2 => some (stepBy len 2 old)
  | .add3 => some (stepBy len 3 old)
  | .add4 => some (stepBy len 4 old)
  | .sub1 => some (stepBy len (-1) old)
  | .sub2 => some (stepBy len (-2) old)
  | .sub3 => some (stepBy len (-3) old)
  | .sub4 => some (stepBy len (-4) old)
  | .x => some (List.replicate len 'x')
  | .z => some (List.replicate len 'z')
  | .blackout => none
  | .dict entry => strings[entry]?.map (fixWidth len)

/-- An encoding that does not look at the old value. -/
def Encoding.Absolute : Encoding → Prop
  | .zero | .one | .x | .z | .dict _ => True
  | _ => False

section

variable {encoding : Encoding}
variable {old new : Text}
variable {strings : List Text}
variable {len : Nat}

theorem Encoding.Absolute.apply_eq
    (absolute : encoding.Absolute)
    (strings : List Text)
    (len : Nat)
    (old old' : Text) :
    encoding.apply strings len old = encoding.apply strings len old' := by
  cases encoding <;> first | rfl | cases absolute

/-- A dictionary that only grows keeps the meaning of a change. -/
theorem apply_of_prefix
    {strings strings' : List Text}
    (grows : strings <+: strings')
    (applied : encoding.apply strings len old = some new) :
    encoding.apply strings' len old = some new := by
  cases encoding with
  | dict entry =>
      obtain ⟨text, isText, rfl⟩ := Option.map_eq_some_iff.mp applied
      obtain ⟨more, rfl⟩ := grows
      have inside := (List.getElem?_eq_some_iff.mp isText).1
      rw [Encoding.apply, List.getElem?_append_left inside, isText]
      rfl
  | _ =>
      exact applied

theorem apply_copiesEncoding
    {old : Text}
    {prevch : Char}
    (lower : ¬('A' ≤ prevch ∧ prevch ≤ 'Z'))
    (chosen : copiesEncoding prevch = some encoding) :
    encoding.apply strings len old = some (List.replicate len prevch) ∧
      encoding.Absolute := by
  unfold copiesEncoding at chosen
  split at chosen
  case h_3 => exact (lower (by decide)).elim
  case h_5 => exact (lower (by decide)).elim
  case h_7 => cases chosen
  all_goals
    obtain rfl := Option.some.inj chosen
    exact ⟨rfl, trivial⟩

/-- A uniform value is read back whatever the old value was. -/
theorem apply_uniformEncoding
    (lower : LowerCase new)
    (chosen : uniformEncoding new = some encoding) :
    encoding.apply strings new.length old = some new ∧ encoding.Absolute := by
  cases new with
  | nil =>
      cases chosen
  | cons prevch rest =>
      rw [uniformEncoding] at chosen
      split at chosen
      · rename_i same
        have isCopy : prevch :: rest = List.replicate (rest.length + 1) prevch := by
          rw [List.replicate_succ]
          congr 1
          exact List.eq_replicate_of_mem fun ch member =>
            of_decide_eq_true (List.all_eq_true.mp same ch member)
        rw [List.length_cons, isCopy]
        exact apply_copiesEncoding (lower prevch List.mem_cons_self) chosen
      · cases chosen

theorem map_opposite_of_isInverse
    (lengths : old.length = new.length)
    (inverse : isInverse old new = true) :
    old.map opposite = new := by
  induction old generalizing new with
  | nil =>
      exact (List.eq_nil_of_length_eq_zero lengths.symm).symm
  | cons before old inductionHypothesis =>
      cases new with
      | nil =>
          cases lengths
      | cons after new =>
          rw [isInverse, List.zip_cons_cons, List.all_cons,
            Bool.and_eq_true] at inverse
          obtain ⟨isOpposite, rest⟩ := inverse
          rw [List.map_cons,
            inductionHypothesis (Nat.succ.inj lengths) rest]
          congr 1
          simp only [Bool.or_eq_true, Bool.and_eq_true, decide_eq_true_eq]
            at isOpposite
          rcases isOpposite with ⟨rfl, rfl⟩ | ⟨rfl, rfl⟩ <;> rfl

theorem apply_shiftEncoding
    (chosen : shiftEncoding old new = some encoding) :
    encoding.apply strings len old = some new := by
  rw [shiftEncoding] at chosen
  split at chosen
  · rename_i shifted
    split at chosen <;> try cases chosen
    all_goals
      rename_i isLast
      obtain ⟨front, rfl⟩ := List.getLast?_eq_some_iff.mp isLast
      rw [List.dropLast_concat] at shifted
      exact congrArg (fun front => some (front ++ _)) shifted
  · split at chosen
    · rename_i shifted
      split at chosen <;> try cases chosen
      all_goals
        rename_i isHead
        obtain ⟨back, rfl⟩ := List.head?_eq_some_iff.mp isHead
        exact congrArg (fun back => some (_ :: back)) shifted
    · cases chosen

/-- The mask of `stepEncoding` keeps every bit. -/
theorem and_msk (value : BitVec 32) (places : Nat) :
    value &&& (BitVec.allOnes 32).sshiftRight places = value := by
  have isOnes : (BitVec.allOnes 32).sshiftRight places = BitVec.allOnes 32 := by
    apply BitVec.eq_of_getElem_eq
    intro place inside
    rw [BitVec.getElem_sshiftRight, BitVec.getElem_allOnes]
    split
    · exact BitVec.getElem_allOnes _ _
    · exact BitVec.msb_allOnes (by decide)
  rw [isOnes, BitVec.and_allOnes]

/-- A step of the 32-bit numbers is a step of the digits. -/
theorem stepBy_eq
    {intvalOld intvalNew : BitVec 32}
    {amount : Int}
    (width : new.length ≤ 32)
    (isOld : binaryValue old = some intvalOld)
    (isNew : binaryValue new = some intvalNew)
    (step : intvalOld + BitVec.ofInt 32 amount = intvalNew) :
    stepBy new.length amount old = new := by
  obtain ⟨_, oldNumber⟩ := binaryValue_spec isOld
  obtain ⟨binary, newNumber⟩ := binaryValue_spec isNew
  have bounded := number_lt new
  have wraps : (2 ^ new.length : Int) ∣ 2 ^ 32 :=
    pow_dvd_pow 2 width
  have small : number new < 2 ^ 32 :=
    Nat.lt_of_lt_of_le bounded (Nat.pow_le_pow_right (by decide) width)
  have sum : (number new : Int) = ((number old : Int) + amount) % 2 ^ 32 := by
    have isNumber := congrArg (fun word : BitVec 32 => (word.toNat : Int)) step
    simp only [BitVec.toNat_add, BitVec.toNat_ofInt] at isNumber
    rw [newNumber, Nat.mod_eq_of_lt small, oldNumber] at isNumber
    rw [← isNumber]
    push_cast
    omega
  have reduced : ((number old : Int) + amount) % 2 ^ new.length = number new := by
    rw [← Int.emod_emod_of_dvd _ wraps, ← sum]
    exact Int.emod_eq_of_lt (by omega) (by exact_mod_cast bounded)
  rw [stepBy, reduced, Int.toNat_natCast, binaryText_number binary]

theorem apply_of_mem_steps
    {old : Text} :
    ∀ step ∈ steps 3,
      step.2.apply strings len old = some (stepBy len step.1 old) := by
  simp [steps, Encoding.apply]

theorem mem_steps_three
    {step : Int × Encoding}
    (listed : step ∈ steps len) :
    step ∈ steps 3 := by
  rcases List.mem_append.mp listed with short | long
  · exact List.mem_append_left _ short
  · split at long
    · exact List.mem_append_right _ long
    · cases long

theorem apply_stepEncoding
    (chosen : stepEncoding old new = some encoding) :
    encoding.apply strings new.length old = some new := by
  simp only [stepEncoding, Option.bind_eq_bind, Option.bind_eq_some_iff] at chosen
  obtain ⟨_, guarded, intvalNew, isNew, intvalOld, isOld, step, found, isStep⟩ :=
    chosen
  have width : new.length ≤ 32 := by
    by_contra wide
    rw [guard, if_neg wide] at guarded
    cases guarded
  obtain rfl := Option.some.inj isStep
  have fits := List.find?_some found
  have listed := List.mem_of_find?_eq_some found
  have moved : intvalOld + BitVec.ofInt 32 step.1 = intvalNew := by
    have masked := of_decide_eq_true fits
    rwa [and_msk] at masked
  have isStep := stepBy_eq width isOld isNew moved
  have applied : step.2.apply strings new.length old =
      some (stepBy new.length step.1 old) :=
    apply_of_mem_steps step (mem_steps_three listed)
  rw [applied, isStep]

/-- A relative encoding is read back from the value that the writer compared with. -/
theorem apply_relativeEncoding
    (lengths : old.length = new.length)
    (chosen : relativeEncoding old new = some encoding) :
    encoding.apply strings new.length old = some new := by
  rw [relativeEncoding] at chosen
  split at chosen
  · rename_i inverse
    obtain rfl := Option.some.inj chosen
    exact congrArg some (map_opposite_of_isInverse lengths inverse)
  · split at chosen
    · rcases Option.or_eq_some_iff.mp chosen with shifted | ⟨_, stepped⟩
      · exact apply_shiftEncoding shifted
      · exact apply_stepEncoding stepped
    · cases chosen

/-- A code that the writer chose is read back from the old value; the old value
counts only `later`. -/
theorem apply_shortEncoding
    {later : Bool}
    (lengths : old.length = new.length)
    (lower : LowerCase new)
    (chosen : shortEncoding later old new = some encoding) :
    encoding.apply strings new.length old = some new ∧
      (later = false → encoding.Absolute) := by
  rcases Option.or_eq_some_iff.mp chosen with relative | ⟨_, uniform⟩
  · cases later with
    | false =>
        cases relative
    | true =>
        exact ⟨apply_relativeEncoding lengths relative, nofun⟩
  · have ⟨applied, absolute⟩ :
        encoding.apply strings new.length old = some new ∧ encoding.Absolute :=
      apply_uniformEncoding lower uniform
    exact ⟨applied, fun _ => absolute⟩

/-! ## Codes without the dictionary -/

theorem uniformEncoding_code
    {new : Text}
    (chosen : uniformEncoding new = some encoding) :
    encoding.code < dictStart := by
  cases new with
  | nil =>
      cases chosen
  | cons prevch rest =>
      rw [uniformEncoding] at chosen
      split at chosen
      · unfold copiesEncoding at chosen
        split at chosen
        case h_7 => cases chosen
        all_goals
          obtain rfl := Option.some.inj chosen
          decide
      · cases chosen

theorem shiftEncoding_code
    (chosen : shiftEncoding old new = some encoding) :
    encoding.code < dictStart := by
  unfold shiftEncoding at chosen
  repeat' split at chosen
  all_goals cases chosen <;> decide

theorem stepEncoding_code
    (chosen : stepEncoding old new = some encoding) :
    encoding.code < dictStart := by
  have all : ∀ step ∈ steps 3, step.2.code < dictStart := by
    decide
  simp only [stepEncoding, Option.bind_eq_bind, Option.bind_eq_some_iff] at chosen
  obtain ⟨_, _, _, _, _, _, step, found, isStep⟩ := chosen
  obtain rfl := Option.some.inj isStep
  exact all step (mem_steps_three (List.mem_of_find?_eq_some found))

/-- The codes that do not need the dictionary are below those that do. -/
theorem shortEncoding_code
    {later : Bool}
    (chosen : shortEncoding later old new = some encoding) :
    encoding.code < dictStart := by
  rcases Option.or_eq_some_iff.mp chosen with relative | ⟨_, uniform⟩
  · cases later with
    | false =>
        cases relative
    | true =>
        change relativeEncoding old new = some encoding at relative
        rw [relativeEncoding] at relative
        split at relative
        · obtain rfl := Option.some.inj relative
          decide
        · split at relative
          · rcases Option.or_eq_some_iff.mp relative with shifted | ⟨_, stepped⟩
            · exact shiftEncoding_code shifted
            · exact stepEncoding_code stepped
          · cases relative
  · exact uniformEncoding_code uniform

end

end Simbus.Lxt2
