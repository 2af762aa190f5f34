import Simbus.Lxt2.Writer
import Mathlib

/-!
# The changes that a symbol collects

A symbol has one change for each time position that its mask names.  A facility
is read by its changes, so the values at all positions follow from the mask, the
changes and the value before.
-/

set_option autoImplicit false

namespace Simbus.Lxt2

/-! ## Masks -/

/-- The positions of a mask, up to some number. -/
def positions (count msk : Nat) : List Bool :=
  (List.range count).map msk.testBit

theorem positions_succ (count msk : Nat) :
    positions (count + 1) msk = positions count msk ++ [msk.testBit count] := by
  rw [positions, List.range_succ, List.map_append]
  rfl

@[simp] theorem length_positions (count msk : Nat) :
    (positions count msk).length = count := by
  rw [positions, List.length_map, List.length_range]

/-- A mask has no positions behind its highest one. -/
theorem positions_of_lt
    {msk count : Nat}
    (masked : msk < 2 ^ count)
    (more : Nat) :
    positions (count + more) msk =
      positions count msk ++ List.replicate more false := by
  induction more with
  | zero =>
      exact (List.append_nil _).symm
  | succ more inductionHypothesis =>
      have isClear : msk.testBit (count + more) = false :=
        Nat.testBit_lt_two_pow (Nat.lt_of_lt_of_le masked
          (Nat.pow_le_pow_right Nat.two_pos (Nat.le_add_right count more)))
      rw [← Nat.add_assoc, positions_succ, inductionHypothesis, isClear,
        List.replicate_succ', List.append_assoc]

/-- The next position is added to a mask. -/
theorem positions_or
    (msk timepos : Nat) :
    positions (timepos + 1) (msk ||| 1 <<< timepos) =
      positions timepos msk ++ [true] := by
  have others : positions timepos (msk ||| 1 <<< timepos) =
      positions timepos msk := by
    apply List.map_congr_left
    intro place member
    have below : place < timepos := List.mem_range.mp member
    rw [Nat.testBit_or, Nat.one_shiftLeft, Nat.testBit_two_pow_of_ne below.ne',
      Bool.or_false]
  rw [positions_succ, others, Nat.testBit_or, Nat.one_shiftLeft,
    Nat.testBit_two_pow_self, Bool.or_true]

theorem ones_eq (msk : Nat) :
    ones msk = (positions granuleSize msk).count true := by
  rw [ones, positions, List.count, List.countP_map]
  congr 1
  funext place
  simp

theorem ones_of_lt
    {msk count : Nat}
    (masked : msk < 2 ^ count)
    (bounded : count ≤ granuleSize) :
    ones msk = (positions count msk).count true := by
  obtain ⟨more, isMore⟩ := Nat.exists_eq_add_of_le bounded
  rw [ones_eq, isMore, positions_of_lt masked, List.count_append,
    List.count_replicate]
  simp

/-! ## Reading a facility -/

/-- The value of a facility behind a change. -/
def Facility.read
    (facility : Facility)
    (strings : List Text)
    (encoding : Encoding)
    (old : Text) : Option Text :=
  match facility.kind with
  | .bits => encoding.apply strings facility.len old
  | .string =>
      match encoding with
      | .dict entry => strings[entry]?
      | .x => some []
      | _ => none

theorem read_bits
    {facility : Facility}
    (isBits : facility.kind = .bits)
    (strings : List Text)
    (encoding : Encoding)
    (old : Text) :
    facility.read strings encoding old =
      encoding.apply strings facility.len old := by
  unfold Facility.read
  rw [isBits]

/-- The values at some positions, by the changes at those that are named. -/
def replay
    (read : Encoding → Text → Option Text) :
    List Bool → List Encoding → Text → Option (List Text)
  | [], [], _ => some []
  | [], _ :: _, _ => none
  | false :: places, chg, old =>
      (replay read places chg old).map (old :: ·)
  | true :: _, [], _ => none
  | true :: places, encoding :: chg, old => do
      let new ← read encoding old
      (replay read places chg new).map (new :: ·)

/-- The value behind some others. -/
def lastValue (old : Text) (values : List Text) : Text :=
  values.getLastD old

theorem lastValue_cons (old value : Text) (values : List Text) :
    lastValue old (value :: values) = lastValue value values :=
  List.getLastD_cons

theorem lastValue_concat (old value : Text) (values : List Text) :
    lastValue old (values ++ [value]) = value :=
  List.getLastD_concat

section Replay

variable {read : Encoding → Text → Option Text}
variable {places : List Bool}
variable {chg : List Encoding}
variable {old : Text}
variable {values : List Text}

theorem replay_length (replayed : replay read places chg old = some values) :
    values.length = places.length := by
  induction places generalizing chg old values with
  | nil =>
      cases chg with
      | nil =>
          cases replayed
          rfl
      | cons encoding chg =>
          cases replayed
  | cons place places inductionHypothesis =>
      cases place with
      | false =>
          obtain ⟨rest, isRest, rfl⟩ := Option.map_eq_some_iff.mp replayed
          rw [List.length_cons, inductionHypothesis isRest, List.length_cons]
      | true =>
          cases chg with
          | nil =>
              cases replayed
          | cons encoding chg =>
              obtain ⟨new, _, isMore⟩ := Option.bind_eq_some_iff.mp replayed
              obtain ⟨rest, isRest, rfl⟩ := Option.map_eq_some_iff.mp isMore
              rw [List.length_cons, inductionHypothesis isRest, List.length_cons]

/-- More positions go on from the last value. -/
theorem replay_append
    (replayed : replay read places chg old = some values)
    (places' : List Bool)
    (chg' : List Encoding) :
    replay read (places ++ places') (chg ++ chg') old =
      (replay read places' chg' (lastValue old values)).map (values ++ ·) := by
  induction places generalizing chg old values with
  | nil =>
      cases chg with
      | nil =>
          cases replayed
          exact Option.map_id'.symm
      | cons encoding chg =>
          cases replayed
  | cons place places inductionHypothesis =>
      cases place with
      | false =>
          obtain ⟨rest, isRest, rfl⟩ := Option.map_eq_some_iff.mp replayed
          have later := inductionHypothesis isRest
          rw [List.cons_append, replay, later, Option.map_map, lastValue_cons]
          rfl
      | true =>
          cases chg with
          | nil =>
              cases replayed
          | cons encoding chg =>
              obtain ⟨new, isNew, isMore⟩ := Option.bind_eq_some_iff.mp replayed
              obtain ⟨rest, isRest, rfl⟩ := Option.map_eq_some_iff.mp isMore
              have later := inductionHypothesis isRest
              rw [List.cons_append, List.cons_append, replay, isNew,
                lastValue_cons]
              simp only [Option.bind_eq_bind, Option.bind_some, later,
                Option.map_map]
              rfl

/-- One position more without a change. -/
theorem replay_stays (replayed : replay read places chg old = some values) :
    replay read (places ++ [false]) chg old =
      some (values ++ [lastValue old values]) := by
  have later := replay_append replayed [false] []
  rwa [List.append_nil] at later

/-- One position more with a change. -/
theorem replay_changes
    {encoding : Encoding}
    {new : Text}
    (replayed : replay read places chg old = some values)
    (isNew : read encoding (lastValue old values) = some new) :
    replay read (places ++ [true]) (chg ++ [encoding]) old =
      some (values ++ [new]) := by
  rw [replay_append replayed [true] [encoding], replay, isNew]
  rfl

/-- A reader that knows more reads the same. -/
theorem replay_mono
    {read' : Encoding → Text → Option Text}
    (extends' : ∀ encoding old new, read encoding old = some new →
      read' encoding old = some new)
    (replayed : replay read places chg old = some values) :
    replay read' places chg old = some values := by
  induction places generalizing chg old values with
  | nil =>
      cases chg with
      | nil =>
          exact replayed
      | cons encoding chg =>
          cases replayed
  | cons place places inductionHypothesis =>
      cases place with
      | false =>
          obtain ⟨rest, isRest, rfl⟩ := Option.map_eq_some_iff.mp replayed
          rw [replay, inductionHypothesis isRest]
          rfl
      | true =>
          cases chg with
          | nil =>
              cases replayed
          | cons encoding chg =>
              obtain ⟨new, isNew, isMore⟩ := Option.bind_eq_some_iff.mp replayed
              obtain ⟨rest, isRest, rfl⟩ := Option.map_eq_some_iff.mp isMore
              rw [replay, extends' _ _ _ isNew]
              simp only [Option.bind_eq_bind, Option.bind_some,
                inductionHypothesis isRest, Option.map_some]

end Replay

/-! ## Symbols -/

/-- What a value of a facility is written as. -/
def Facility.normal (facility : Facility) (value : Text) : Text :=
  match facility.kind with
  | .bits => normalize facility.len value
  | .string => value

theorem normalize_isCString
    {value : Text}
    (isCString : IsCString value)
    (len : Nat) :
    IsCString (normalize len value) := by
  have lowers : ∀ ch : Char, 0 < ch.toNat ∧ ch.toNat < 256 →
      0 < (lowerCase ch).toNat ∧ (lowerCase ch).toNat < 256 := by
    intro ch isByte
    rw [lowerCase]
    split
    · rename_i isUpper
      have low : 65 ≤ ch.toNat := isUpper.1
      have high : ch.toNat ≤ 90 := isUpper.2
      rw [Char.toNat_ofNat, if_pos (.inl (by omega))]
      omega
    · exact isByte
  have fixed : IsCString (fixWidth len value) := by
    rw [fixWidth]
    split
    · intro ch member
      rcases List.mem_append.mp member with isFill | isOld
      · rw [List.eq_of_mem_replicate isFill]
        cases value with
        | nil =>
            decide
        | cons first rest =>
            rw [leftFill]
            split
            · exact isCString first List.mem_cons_self
            · decide
      · exact isCString ch isOld
    · intro ch member
      exact isCString ch (List.mem_of_mem_take member)
  intro ch member
  obtain ⟨old, isOld, rfl⟩ := List.mem_map.mp member
  exact lowers old (fixed old isOld)

/-- A value that has been fixed stays as it is. -/
theorem normal_normal (facility : Facility) (value : Text) :
    facility.normal (facility.normal value) = facility.normal value := by
  unfold Facility.normal
  cases facility.kind with
  | string =>
      rfl
  | bits =>
      have fixed : fixWidth facility.len (normalize facility.len value) =
          normalize facility.len value := by
        have isLength := length_normalize facility.len value
        rw [fixWidth, if_neg (by rw [isLength]; exact Nat.lt_irrefl _)]
        exact List.take_of_length_le isLength.le
      change normalize facility.len (normalize facility.len value) = _
      rw [normalize, fixed]
      have lower := normalize_lowerCase facility.len value
      generalize normalize facility.len value = text at lower
      refine (List.map_congr_left fun ch member => ?_).trans (List.map_id _)
      exact if_neg (lower ch member)

theorem normal_isCString
    {value : Text}
    (isCString : IsCString value)
    (facility : Facility) :
    IsCString (facility.normal value) := by
  unfold Facility.normal
  cases facility.kind with
  | string =>
      exact isCString
  | bits =>
      exact normalize_isCString isCString facility.len

theorem vcdTruncateBitvec_isCString
    {value : Text}
    (isCString : IsCString value) :
    IsCString (vcdTruncateBitvec value) := by
  cases value with
  | nil =>
      exact isCString
  | cons first rest =>
      rw [vcdTruncateBitvec]
      split
      · exact isCString
      · rename_i notOne
        obtain ⟨count, whole, _⟩ := truncateAfter_spec notOne rest
        rw [whole] at isCString
        exact fun ch member => isCString ch (List.mem_append_right _ member)

/-- What the dictionary gets of a value. -/
def Facility.stored (facility : Facility) (value : Text) : Text :=
  match facility.kind with
  | .bits => vcdTruncateBitvec value
  | .string => value

theorem stored_isCString
    {value : Text}
    (isCString : IsCString value)
    (facility : Facility) :
    IsCString (facility.stored value) := by
  unfold Facility.stored
  cases facility.kind with
  | string =>
      exact isCString
  | bits =>
      exact vcdTruncateBitvec_isCString isCString

/-- What holds of a symbol at a time position, with so many strings. -/
structure Symbol.Holds
    (timepos entries : Nat)
    (symbol : Symbol) : Prop where
  masked : symbol.msk < 2 ^ (timepos + 1)
  counted : symbol.chg.length =
    (positions (timepos + 1) symbol.msk).count true
  known : ∀ encoding ∈ symbol.chg, encoding.code < entries + dictStart
  normal : symbol.facility.normal symbol.value = symbol.value
  isCString : IsCString symbol.value

/--
What the changes of a symbol say: these values before the present position, and
its own value there.
-/
structure Symbol.Shows
    (strings : List Text)
    (timepos : Nat)
    (old : Text)
    (front : List Text)
    (symbol : Symbol) : Prop where
  changes : ∃ chg,
    replay (symbol.facility.read strings) (positions timepos symbol.msk) chg old =
      some front ∧
    if symbol.msk.testBit timepos = true then
      ∃ encoding, symbol.chg = chg ++ [encoding] ∧
        symbol.facility.read strings encoding (lastValue old front) =
          some symbol.value
    else
      symbol.chg = chg ∧ symbol.value = lastValue old front

section Change

variable {symbol symbol' : Symbol}
variable {timepos entries : Nat}

/-- A change goes to its place, or takes the place of the one there. -/
theorem change_eq
    (holds : symbol.Holds timepos entries)
    (inside : timepos < granuleSize)
    (encoding : Encoding) :
    symbol.change timepos encoding =
      some
        (if symbol.msk.testBit timepos = true then
          { symbol with chg := symbol.chg.dropLast ++ [encoding] }
        else
          { symbol with
            msk := symbol.msk ||| 1 <<< timepos
            chg := symbol.chg ++ [encoding] }) := by
  have counted := holds.counted
  rw [positions_succ, List.count_append] at counted
  rw [Symbol.change, if_neg (Nat.not_le.mpr inside)]
  split
  · rename_i isSet
    rw [isSet] at counted
    have some_ : symbol.chg.length ≠ 0 := by
      rw [counted]
      exact Nat.succ_ne_zero _
    rw [if_neg some_]
  · rename_i isClear
    rw [Bool.not_eq_true] at isClear
    have bounded : (positions timepos symbol.msk).count true ≤
        (positions timepos symbol.msk).length :=
      List.count_le_length
    rw [isClear] at counted
    have room : ¬ granuleSize ≤ symbol.chg.length := by
      rw [length_positions] at bounded
      rw [counted]
      exact Nat.not_le.mpr (Nat.lt_of_le_of_lt bounded inside)
    rw [if_neg room]

theorem change_facility
    {encoding : Encoding}
    (changed : symbol.change timepos encoding = some symbol') :
    symbol'.facility = symbol.facility := by
  unfold Symbol.change at changed
  repeat' split at changed
  all_goals cases changed <;> rfl

theorem Symbol.Holds.mono
    (holds : symbol.Holds timepos entries)
    {entries' : Nat}
    (more : entries ≤ entries') :
    symbol.Holds timepos entries' :=
  { holds with
    known := fun encoding member => Nat.lt_of_lt_of_le
      (holds.known encoding member) (Nat.add_le_add_right more _) }

/-- At the next time position there is no change yet. -/
theorem Symbol.Holds.next (holds : symbol.Holds timepos entries) :
    symbol.Holds (timepos + 1) entries where
  masked := Nat.lt_of_lt_of_le holds.masked
    (Nat.pow_le_pow_right Nat.two_pos (Nat.le_succ _))
  counted := by
    rw [positions_of_lt holds.masked 1, List.count_append, ← holds.counted]
    rfl
  known := holds.known
  normal := holds.normal
  isCString := holds.isCString

theorem Symbol.Holds.change
    (holds : symbol.Holds timepos entries)
    {encoding : Encoding}
    {value : Text}
    (known : encoding.code < entries + dictStart)
    (normal : symbol.facility.normal value = value)
    (isCString : IsCString value)
    (changed : symbol.change timepos encoding = some symbol') :
    Symbol.Holds timepos entries { symbol' with value := value } := by
  have inside : timepos < granuleSize := by
    by_contra outside
    rw [Symbol.change, if_pos (Nat.not_lt.mp outside)] at changed
    cases changed
  rw [change_eq holds inside] at changed
  obtain rfl := Option.some.inj changed
  have counted := holds.counted
  rw [positions_succ, List.count_append] at counted
  split
  · rename_i isSet
    rw [isSet] at counted
    refine ⟨holds.masked, ?_, ?_, normal, isCString⟩
    · change (symbol.chg.dropLast ++ [encoding]).length = _
      rw [positions_succ, List.count_append, isSet, ← counted,
        List.length_append, List.length_dropLast, counted]
      rfl
    · intro other member
      rcases List.mem_append.mp member with isOld | isNew
      · exact holds.known other (List.mem_of_mem_dropLast isOld)
      · rwa [List.mem_singleton.mp isNew]
  · rename_i isClear
    rw [Bool.not_eq_true] at isClear
    rw [isClear] at counted
    refine ⟨?_, ?_, ?_, normal, isCString⟩
    · apply Nat.or_lt_two_pow holds.masked
      rw [Nat.one_shiftLeft]
      exact Nat.pow_lt_pow_right (Nat.lt_succ_self 1) (Nat.lt_succ_self _)
    · change (symbol.chg ++ [encoding]).length = _
      rw [positions_or, List.count_append, List.length_append, counted]
      rfl
    · intro other member
      rcases List.mem_append.mp member with isOld | isNew
      · exact holds.known other isOld
      · rwa [List.mem_singleton.mp isNew]

/-- A symbol whose changes are written starts the next granule. -/
theorem Symbol.Holds.cleared
    (holds : symbol.Holds timepos entries)
    (entries' : Nat) :
    symbol.cleared.Holds 0 entries' where
  masked := Nat.two_pos
  counted := by
    change 0 = (positions 1 0).count true
    decide
  known := fun _ member => absurd member List.not_mem_nil
  normal := holds.normal
  isCString := holds.isCString

theorem normal_initial (facility : Facility) :
    facility.normal (List.replicate facility.len 'x') =
      List.replicate facility.len 'x' := by
  rw [Facility.normal]
  split
  · rw [normalize, fixWidth, List.length_replicate, if_neg (Nat.lt_irrefl _),
      List.take_replicate, Nat.min_self, List.map_replicate]
    rfl
  · rfl

theorem Symbol.added_holds (facility : Facility) (entries : Nat) :
    (Symbol.added facility).Holds 0 entries where
  masked := Nat.lt_succ_self 1
  counted := by
    change 1 = (positions 1 1).count true
    decide
  known := by
    intro encoding member
    rw [List.mem_singleton.mp member]
    exact Nat.lt_add_left entries (by decide)
  normal := normal_initial facility
  isCString := by
    intro ch member
    rw [List.eq_of_mem_replicate member]
    decide

end Change

/-! ## What symbols show -/

section Shows

variable {facility : Facility}
variable {symbol symbol' : Symbol}
variable {strings strings' : List Text}
variable {timepos entries : Nat}
variable {old : Text}
variable {front : List Text}

/-- A dictionary that only grows keeps the values of a facility. -/
theorem read_mono
    (grows : strings <+: strings')
    (encoding : Encoding)
    (old new : Text)
    (isNew : facility.read strings encoding old = some new) :
    facility.read strings' encoding old = some new := by
  unfold Facility.read at isNew ⊢
  split at isNew
  · exact apply_of_prefix grows isNew
  · cases encoding with
    | dict entry =>
        obtain ⟨more, rfl⟩ := grows
        have inside := (List.getElem?_eq_some_iff.mp isNew).1
        exact (List.getElem?_append_left inside).trans isNew
    | _ =>
        exact isNew

/-- An encoding that does not look at the old value is read from any. -/
theorem read_absolute
    {encoding : Encoding}
    (absolute : encoding.Absolute)
    (old old' : Text) :
    facility.read strings encoding old = facility.read strings encoding old' := by
  unfold Facility.read
  split
  · exact absolute.apply_eq strings facility.len old old'
  · rfl

/-- There is a value for every position before the present one. -/
theorem Symbol.Shows.length (shows_ : symbol.Shows strings timepos old front) :
    front.length = timepos := by
  obtain ⟨_, replayed, _⟩ := shows_.changes
  rw [replay_length replayed, length_positions]

theorem Symbol.Shows.mono
    (shows_ : symbol.Shows strings timepos old front)
    (grows : strings <+: strings') :
    symbol.Shows strings' timepos old front := by
  obtain ⟨chg, replayed, now⟩ := shows_.changes
  refine ⟨chg, replay_mono (read_mono grows) replayed, ?_⟩
  split
  · rename_i isSet
    rw [if_pos isSet] at now
    obtain ⟨encoding, isChg, isValue⟩ := now
    exact ⟨encoding, isChg, read_mono grows _ _ _ isValue⟩
  · rename_i isClear
    rwa [if_neg isClear] at now

/-- The changes up to the present position show the value there as well. -/
theorem Symbol.Shows.all (shows_ : symbol.Shows strings timepos old front) :
    replay (symbol.facility.read strings) (positions (timepos + 1) symbol.msk)
        symbol.chg old =
      some (front ++ [symbol.value]) := by
  obtain ⟨chg, replayed, now⟩ := shows_.changes
  rw [positions_succ]
  split at now
  · rename_i isSet
    obtain ⟨encoding, isChg, isValue⟩ := now
    rw [isSet, isChg]
    exact replay_changes replayed isValue
  · rename_i isClear
    rw [Bool.not_eq_true] at isClear
    rw [isClear, now.1, now.2]
    exact replay_stays replayed

/-- The present value goes before the next position, which has it too. -/
theorem Symbol.Shows.next
    (shows_ : symbol.Shows strings timepos old front)
    (holds : symbol.Holds timepos entries) :
    symbol.Shows strings (timepos + 1) old (front ++ [symbol.value]) := by
  have isClear : symbol.msk.testBit (timepos + 1) = false :=
    Nat.testBit_lt_two_pow holds.masked
  refine ⟨symbol.chg, shows_.all, ?_⟩
  rw [isClear, lastValue_concat]
  exact ⟨rfl, rfl⟩

/-- A change at a free position, or one that needs no old value, shows the new value. -/
theorem Symbol.Shows.change
    (shows_ : symbol.Shows strings timepos old front)
    (holds : symbol.Holds timepos entries)
    {encoding : Encoding}
    {value : Text}
    (isRead : symbol.facility.read strings encoding symbol.value = some value)
    (free : symbol.msk.testBit timepos = true → encoding.Absolute)
    (changed : symbol.change timepos encoding = some symbol') :
    Symbol.Shows strings timepos old front { symbol' with value := value } := by
  have inside : timepos < granuleSize := by
    by_contra outside
    rw [Symbol.change, if_pos (Nat.not_lt.mp outside)] at changed
    cases changed
  rw [change_eq holds inside] at changed
  obtain rfl := Option.some.inj changed
  obtain ⟨chg, replayed, now⟩ := shows_.changes
  split at now
  · rename_i isSet
    obtain ⟨before, isChg, _⟩ := now
    rw [if_pos isSet]
    refine ⟨chg, replayed, ?_⟩
    rw [if_pos isSet]
    refine ⟨encoding, ?_, ?_⟩
    · change symbol.chg.dropLast ++ [encoding] = _
      rw [isChg, List.dropLast_concat]
    · exact (read_absolute (free isSet) _ _).trans isRead
  · rename_i isClear
    rw [if_neg isClear]
    have sameBefore : positions timepos (symbol.msk ||| 1 <<< timepos) =
        positions timepos symbol.msk := by
      have both := positions_or symbol.msk timepos
      rw [positions_succ] at both
      exact (List.append_inj' both rfl).1
    have isSet : (symbol.msk ||| 1 <<< timepos).testBit timepos = true := by
      rw [Nat.testBit_or, Nat.one_shiftLeft, Nat.testBit_two_pow_self,
        Bool.or_true]
    refine ⟨chg, ?_, ?_⟩
    · change replay _ (positions timepos (symbol.msk ||| 1 <<< timepos)) chg old = _
      rw [sameBefore]
      exact replayed
    · change if (symbol.msk ||| 1 <<< timepos).testBit timepos = true then _ else _
      rw [if_pos isSet]
      refine ⟨encoding, congrArg (· ++ [encoding]) now.1, ?_⟩
      rw [← now.2]
      exact isRead

theorem Symbol.cleared_shows (symbol : Symbol) (strings : List Text) :
    symbol.cleared.Shows strings 0 symbol.value [] := by
  have isClear : ¬ symbol.cleared.msk.testBit 0 = true := by
    change ¬ (0).testBit 0 = true
    decide
  refine ⟨[], rfl, ?_⟩
  rw [if_neg isClear]
  exact ⟨rfl, rfl⟩

theorem Symbol.added_shows
    (facility : Facility)
    (strings : List Text)
    (old : Text) :
    (Symbol.added facility).Shows strings 0 old [] := by
  have isSet : (Symbol.added facility).msk.testBit 0 = true := by
    change (1).testBit 0 = true
    decide
  refine ⟨[], rfl, ?_⟩
  rw [if_pos isSet]
  refine ⟨.x, rfl, ?_⟩
  change facility.read strings .x _ = some (List.replicate facility.len 'x')
  rw [Facility.read]
  split
  · rfl
  · rename_i isString
    rw [Facility.len, isString]
    rfl

end Shows

end Simbus.Lxt2
