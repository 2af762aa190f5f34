import Simbus.CheckedArray
import Simbus.Recurrence
import Mathlib

/-!
# The random numbers

`mt19937int.c`, of which the client libraries and the server have a copy each.  A
block of words is kept in an array and is replaced by the next block when all of its
numbers have been drawn.  An `unsigned long` has 64 bits, of which the words use 32.
-/

set_option autoImplicit false

namespace Simbus.Mt

open CheckedArray (put?)
open Recurrence (Obeys Reaches Keeps)

/-! ## The generator -/

/-- `N`, the words of a block. -/
abbrev periodN : Nat := 624

/-- `M`. -/
abbrev periodM : Nat := 397

def matrixA : BitVec 64 := 0x9908b0df

def upperMask : BitVec 64 := 0x80000000

def lowerMask : BitVec 64 := 0x7fffffff

def temperingMaskB : BitVec 64 := 0x9d2c5680

def temperingMaskC : BitVec 64 := 0xefc60000

/-- `simbus_mt_context_s`; `mti` is one more than `N` before the first seed. -/
structure MtContext where
  mti : Nat
  mt : Vector (BitVec 64) 1023

/-- `simbus_mt_sgenrand`. -/
def sgenrand (context : MtContext) (seed : BitVec 64) : Option MtContext := do
  let mt ← put? context.mt 0 (seed &&& 0xffffffff)
  let mt ← (List.range' 1 (periodN - 1)).foldlM (fun mt mti => do
    let before ← mt[mti - 1]?
    put? mt mti ((69069 * before) &&& 0xffffffff)) mt
  return { mti := periodN, mt := mt }

/-- `mag01`. -/
def mag01 (bit : BitVec 64) : BitVec 64 :=
  if bit = 0 then 0 else matrixA

/-- One word of the next block. -/
def twist
    (mt : Vector (BitVec 64) 1023)
    (kk after far : Nat) : Option (Vector (BitVec 64) 1023) := do
  let word ← mt[kk]?
  let behind ← mt[after]?
  let y := (word &&& upperMask) ||| (behind &&& lowerMask)
  let other ← mt[far]?
  put? mt kk (other ^^^ (y >>> 1) ^^^ mag01 (y &&& 1))

/-- The two loops of `simbus_mt_genrand` and the word behind them. -/
def generateWords
    (mt : Vector (BitVec 64) 1023) : Option (Vector (BitVec 64) 1023) := do
  let mt ← (List.range' 0 (periodN - periodM)).foldlM
    (fun mt kk => twist mt kk (kk + 1) (kk + periodM)) mt
  let mt ← (List.range' (periodN - periodM) (periodM - 1)).foldlM
    (fun mt kk => twist mt kk (kk + 1) (kk + periodM - periodN)) mt
  twist mt (periodN - 1) 0 (periodM - 1)

/-- The tempering at the end of `simbus_mt_genrand`. -/
def temper (y : BitVec 64) : BitVec 64 :=
  let y := y ^^^ (y >>> 11)
  let y := y ^^^ ((y <<< 7) &&& temperingMaskB)
  let y := y ^^^ ((y <<< 15) &&& temperingMaskC)
  y ^^^ (y >>> 18)

/-- The next block; a generator without a seed takes 4357. -/
def refill (context : MtContext) : Option MtContext := do
  let context ←
    if context.mti = periodN + 1 then
      sgenrand context 4357
    else
      some context
  let mt ← generateWords context.mt
  return { mti := 0, mt := mt }

/-- `simbus_mt_genrand`. -/
def genrand (context : MtContext) : Option (BitVec 64 × MtContext) := do
  let refilled ← if periodN ≤ context.mti then refill context else some context
  let y ← refilled.mt[refilled.mti]?
  return (temper y, { refilled with mti := refilled.mti + 1 })

/-- Some numbers, one after the other. -/
def draws : Nat → MtContext → Option (List (BitVec 64) × MtContext)
  | 0, context => some ([], context)
  | count + 1, context => do
      let (number, context) ← genrand context
      let (numbers, context) ← draws count context
      return (number :: numbers, context)

/-! ## The sequence of the words -/

/-- The words of a seed. -/
def seeded (seed : BitVec 64) : Nat → BitVec 64
  | 0 => seed &&& 0xffffffff
  | place + 1 => (69069 * seeded seed place) &&& 0xffffffff

/-- A word of the next block is made of three words. -/
def nextWord (word behind other : BitVec 64) : BitVec 64 :=
  let y := (word &&& upperMask) ||| (behind &&& lowerMask)
  other ^^^ (y >>> 1) ^^^ mag01 (y &&& 1)

theorem reaches : Reaches periodN periodM := by
  decide

/-- The words that follow from a seed. -/
def words (seed : BitVec 64) : Nat → BitVec 64 :=
  Recurrence.extend reaches nextWord (seeded seed)

/-- The numbers that follow from a seed: the words behind the first block. -/
def number (seed : BitVec 64) (draw : Nat) : BitVec 64 :=
  temper (words seed (periodN + draw))

theorem words_obey (seed : BitVec 64) :
    Obeys periodN periodM nextWord (words seed) :=
  Recurrence.extend_obeys reaches (seeded seed)

theorem words_of_lt
    (seed : BitVec 64)
    {place : Nat}
    (inside : place < periodN) :
    words seed place = seeded seed place :=
  Recurrence.extend_of_lt reaches (seeded seed) inside

/-! ## What is drawn -/

section

variable {items : Nat → BitVec 64}
variable {start drawn : Nat}
variable {mt : Vector (BitVec 64) 1023}
variable {context : MtContext}

theorem twist_eq (mt : Vector (BitVec 64) 1023) (kk after far : Nat) :
    twist mt kk after far = Recurrence.replace nextWord mt kk after far :=
  rfl

/-- The three parts of the loop replace a block by the next one. -/
theorem generateWords_keeps
    (obeys : Obeys periodN periodM nextWord items)
    (keeps : Keeps periodN items start 0 mt) :
    ∃ mt', generateWords mt = some mt' ∧
      Keeps periodN items (start + periodN) 0 mt' := by
  have fits : periodN ≤ 1023 := by
    decide
  obtain ⟨front, isFront, keepsFront⟩ := @Recurrence.foldlM_range' _
    (fun mt kk => twist mt kk (kk + 1) (kk + periodM))
    (fun done mt => Keeps periodN items start done mt) 0 (periodN - periodM)
    (by
      intro kk mt _ inside keeps
      have isFront : kk < 0 + (624 - 397) := inside
      have isNear : kk + 397 < 624 := by omega
      have more : kk + 1 < 624 := by omega
      rw [twist_eq]
      exact keeps.replace obeys reaches fits (Nat.lt_of_succ_lt more)
        (if_pos more).symm (if_pos isNear).symm) mt keeps
  obtain ⟨middle, isMiddle, keepsMiddle⟩ := @Recurrence.foldlM_range' _
    (fun mt kk => twist mt kk (kk + 1) (kk + periodM - periodN))
    (fun done mt => Keeps periodN items start done mt) (periodN - periodM)
    (periodM - 1)
    (by
      intro kk mt isBehind inside keeps
      have isBehind : 624 - 397 ≤ kk := isBehind
      have inside : kk < 624 - 397 + (397 - 1) := inside
      have isFar : ¬ kk + 397 < 624 := by omega
      have more : kk + 1 < 624 := by omega
      rw [twist_eq]
      exact keeps.replace obeys reaches fits (Nat.lt_of_succ_lt more)
        (if_pos more).symm (if_neg isFar).symm) front keepsFront
  obtain ⟨mt', isLast, keepsAll⟩ := @Keeps.replace _ periodN periodM nextWord _ items
    start (periodN - 1) middle keepsMiddle obeys reaches fits (by decide) 0
    (periodM - 1) rfl rfl
  refine ⟨mt', ?_, keepsAll.all⟩
  rw [generateWords, isFront, Option.bind_eq_bind, Option.bind_some, isMiddle,
    Option.bind_some, twist_eq]
  exact isLast

/-- The generator has a block of the words, of which some have been drawn. -/
def Generates
    (items : Nat → BitVec 64)
    (drawn : Nat)
    (context : MtContext) : Prop :=
  ∃ start, Keeps periodN items start 0 context.mt ∧
    start + context.mti = periodN + drawn ∧ context.mti ≤ periodN

/-- A draw gives the next number. -/
theorem Generates.genrand
    (generates : Generates items drawn context)
    (obeys : Obeys periodN periodM nextWord items) :
    ∃ context', genrand context = some (temper (items (periodN + drawn)), context') ∧
      Generates items (drawn + 1) context' := by
  obtain ⟨start, keeps, isDrawn, inside⟩ := generates
  by_cases isEmpty : periodN ≤ context.mti
  · have isAll : context.mti = periodN := Nat.le_antisymm inside isEmpty
    rw [isAll] at isDrawn
    obtain ⟨mt', isNext, keepsNext⟩ := generateWords_keeps obeys keeps
    have isSeeded : context.mti ≠ periodN + 1 := by
      rw [isAll]
      exact Nat.ne_of_lt (Nat.lt_succ_self periodN)
    have isWord : mt'[0]? = some (items (periodN + drawn)) := by
      rw [keepsNext 0 (by decide), if_neg (Nat.not_lt_zero 0), isDrawn, Nat.add_zero]
    have next : start + periodN + 1 = periodN + (drawn + 1) := by
      rw [isDrawn, Nat.add_assoc]
    have fits : 1 ≤ periodN := by decide
    refine ⟨⟨1, mt'⟩, ?_, start + periodN, keepsNext, next, fits⟩
    simp only [Mt.genrand, if_pos isEmpty, refill, if_neg isSeeded,
      Option.bind_eq_bind, Option.bind_some, isNext, Option.pure_def, isWord]
  · have isWord : context.mt[context.mti]? = some (items (periodN + drawn)) := by
      rw [keeps context.mti (Nat.lt_of_not_le isEmpty),
        if_neg (Nat.not_lt_zero context.mti), isDrawn]
    refine ⟨⟨context.mti + 1, context.mt⟩, ?_, start, keeps, ?_, ?_⟩
    · simp only [Mt.genrand, if_neg isEmpty, Option.bind_eq_bind, Option.bind_some,
        isWord]
      rfl
    · rw [← Nat.add_assoc, isDrawn, Nat.add_assoc]
    · exact Nat.lt_of_not_le isEmpty

/-- Some draws give the next numbers. -/
theorem Generates.draws
    (generates : Generates items drawn context)
    (obeys : Obeys periodN periodM nextWord items)
    (count : Nat) :
    ∃ context', draws count context =
        some ((List.range' drawn count).map fun draw =>
          temper (items (periodN + draw)), context') ∧
      Generates items (drawn + count) context' := by
  induction count generalizing drawn context with
  | zero =>
      exact ⟨context, rfl, generates⟩
  | succ count inductionHypothesis =>
      obtain ⟨middle, isFirst, generatesMiddle⟩ := generates.genrand obeys
      obtain ⟨context', isRest, generates'⟩ := inductionHypothesis generatesMiddle
      refine ⟨context', ?_, ?_⟩
      · simp only [Mt.draws, isFirst, isRest, Option.bind_eq_bind, Option.bind_some,
          List.range'_succ, List.map_cons]
        rfl
      · rwa [Nat.add_right_comm] at generates'

/-- The seed fills the first block. -/
theorem sgenrand_generates (context : MtContext) (seed : BitVec 64) :
    ∃ context', sgenrand context seed = some context' ∧
      context'.mti = periodN ∧ Generates (words seed) 0 context' := by
  let holds (done : Nat) (mt : Vector (BitVec 64) 1023) : Prop :=
    ∀ place < done, mt[place]? = some (seeded seed place)
  have isFirst : put? context.mt 0 (seed &&& 0xffffffff) =
      some (context.mt.set 0 (seed &&& 0xffffffff)) :=
    CheckedArray.put?_of_lt (by decide) _
  have start : holds 1 (context.mt.set 0 (seed &&& 0xffffffff)) := by
    intro place isPlace
    obtain rfl : place = 0 := Nat.lt_one_iff.mp isPlace
    exact Vector.getElem?_set_self _
  obtain ⟨mt, isFilled, filled⟩ := @Recurrence.foldlM_range' _
    (fun mt mti => (mt[mti - 1]?).bind fun before =>
      put? mt mti ((69069 * before) &&& 0xffffffff)) holds 1 (periodN - 1)
    (by
      intro mti mt positive inside before
      have inside : mti < 1 + (624 - 1) := inside
      have inCells : mti < 1023 := by omega
      refine ⟨mt.set mti (seeded seed mti), ?_, ?_⟩
      · obtain ⟨place, rfl⟩ : ∃ place, mti = place + 1 := ⟨mti - 1, by omega⟩
        have isBefore : mt[place + 1 - 1]? = some (seeded seed place) :=
          before place (Nat.lt_succ_self place)
        rw [isBefore, Option.bind_some]
        exact CheckedArray.put?_of_lt inCells _
      · intro place isPlace
        by_cases same : place = mti
        · subst same
          exact Vector.getElem?_set_self _
        · rw [Vector.getElem?_set_ne inCells (Ne.symm same)]
          exact before place (by omega)) _ start
  refine ⟨⟨periodN, mt⟩, ?_, rfl, 0, ?_, Nat.zero_add _, Nat.le_refl _⟩
  · simp only [sgenrand, Option.bind_eq_bind, isFirst, Option.bind_some, isFilled]
    rfl
  · intro place inside
    rw [filled place inside, if_neg (Nat.not_lt_zero place), Nat.zero_add,
      words_of_lt seed inside]

/-- The numbers of a generator with a seed. -/
theorem sgenrand_draws (context : MtContext) (seed : BitVec 64) (count : Nat) :
    ∃ context', (sgenrand context seed).bind (draws count) =
        some ((List.range count).map (number seed), context') ∧
      Generates (words seed) count context' := by
  obtain ⟨start, isStart, _, generates⟩ := sgenrand_generates context seed
  obtain ⟨context', isDrawn, generates'⟩ := generates.draws (words_obey seed) count
  refine ⟨context', ?_, ?_⟩
  · rw [isStart, Option.bind_some, isDrawn, ← List.range_eq_range']
    rfl
  · rwa [Nat.zero_add] at generates'

/-- The first draw without a seed is the first one with the seed 4357. -/
theorem genrand_unseeded (context : MtContext) :
    genrand { context with mti := periodN + 1 } =
      (sgenrand context 4357).bind genrand := by
  obtain ⟨start, isStart, isMti, _⟩ := sgenrand_generates context 4357
  have same : sgenrand { context with mti := periodN + 1 } 4357 = some start :=
    isStart
  have isSeeded : start.mti ≠ periodN + 1 := by
    rw [isMti]
    exact Nat.ne_of_lt (Nat.lt_succ_self periodN)
  have sameBlock : refill { context with mti := periodN + 1 } = refill start := by
    rw [refill, refill, if_pos rfl, if_neg isSeeded, same]
  have isEmpty : periodN ≤ start.mti := Nat.le_of_eq isMti.symm
  rw [isStart, Option.bind_some, genrand, genrand, if_pos (Nat.le_succ periodN),
    if_pos isEmpty, sameBlock]

end

/-! ## The tempering -/

/-- A word that is changed by a part of itself is known from the result. -/
theorem xor_injective
    {width : Nat}
    {change : BitVec width → BitVec width}
    (additive : ∀ x y, change (x ^^^ y) = change x ^^^ change y)
    (onlyZero : ∀ x, change x = x → x = 0) :
    Function.Injective fun x => x ^^^ change x := by
  intro x y same
  have isFixed : change (x ^^^ y) = x ^^^ y := by
    calc
      change (x ^^^ y) = change x ^^^ change y := additive x y
      _ = (x ^^^ change x) ^^^ x ^^^ change y := by
        rw [BitVec.xor_comm x (change x), BitVec.xor_assoc (change x), BitVec.xor_self,
          BitVec.xor_zero]
      _ = (y ^^^ change y) ^^^ x ^^^ change y :=
        congrArg (fun word => word ^^^ x ^^^ change y) same
      _ = x ^^^ y := by
        rw [BitVec.xor_comm y, BitVec.xor_assoc, BitVec.xor_assoc, BitVec.xor_comm y,
          BitVec.xor_comm (change y), BitVec.xor_assoc, BitVec.xor_assoc,
          BitVec.xor_comm y, ← BitVec.xor_assoc (change y), BitVec.xor_self,
          BitVec.zero_xor]
  exact BitVec.xor_eq_zero_iff.mp (onlyZero _ isFixed)

theorem ushiftRight_onlyZero
    {width shift : Nat}
    (positive : 0 < shift)
    (word : BitVec width)
    (same : word >>> shift = word) :
    word = 0 := by
  have isQuotient : word.toNat / 2 ^ shift = word.toNat := by
    rw [← Nat.shiftRight_eq_div_pow, ← BitVec.toNat_ushiftRight, same]
  have isZero : word.toNat = 0 := by
    by_contra notZero
    have smaller := Nat.div_lt_self (Nat.pos_of_ne_zero notZero)
      (Nat.one_lt_two_pow positive.ne')
    exact Nat.ne_of_lt smaller isQuotient
  exact BitVec.eq_of_toNat_eq isZero

theorem shiftLeft_and_onlyZero
    {width shift : Nat}
    (positive : 0 < shift)
    (mask word : BitVec width)
    (same : (word <<< shift) &&& mask = word) :
    word = 0 := by
  apply BitVec.eq_of_getLsbD_eq
  intro place inside
  rw [BitVec.ofNat_eq_ofNat, BitVec.getLsbD_zero]
  clear inside
  -- A bit comes from one below it, and there is none below the lowest ones.
  induction place using Nat.strong_induction_on with
  | _ place inductionHypothesis =>
      rw [← same, BitVec.getLsbD_and, BitVec.getLsbD_shiftLeft]
      by_cases low : place < shift
      · rw [decide_eq_true low, Bool.not_true, Bool.and_false, Bool.false_and,
          Bool.false_and]
      · rw [inductionHypothesis (place - shift) (by omega), Bool.and_false,
          Bool.false_and]

theorem ushiftRight_additive
    {width : Nat}
    (shift : Nat)
    (x y : BitVec width) :
    (x ^^^ y) >>> shift = (x >>> shift) ^^^ (y >>> shift) :=
  BitVec.ushiftRight_xor_distrib x y shift

theorem shiftLeft_and_additive
    {width : Nat}
    (shift : Nat)
    (mask x y : BitVec width) :
    ((x ^^^ y) <<< shift) &&& mask =
      ((x <<< shift) &&& mask) ^^^ ((y <<< shift) &&& mask) := by
  rw [BitVec.shiftLeft_xor_distrib]
  apply BitVec.eq_of_getLsbD_eq
  intro place _
  simp only [BitVec.getLsbD_and, BitVec.getLsbD_xor]
  cases (x <<< shift).getLsbD place <;> cases (y <<< shift).getLsbD place <;>
    cases mask.getLsbD place <;> rfl

/-- A number tells the word that it was made of. -/
theorem temper_injective : Function.Injective temper := by
  have right : ∀ shift, 0 < shift →
      Function.Injective fun y : BitVec 64 => y ^^^ (y >>> shift) :=
    fun shift positive => xor_injective (ushiftRight_additive shift)
      (ushiftRight_onlyZero positive)
  have left : ∀ shift mask, 0 < shift →
      Function.Injective fun y : BitVec 64 => y ^^^ ((y <<< shift) &&& mask) :=
    fun shift mask positive => xor_injective (shiftLeft_and_additive shift mask)
      (shiftLeft_and_onlyZero positive mask)
  exact ((right 18 (by decide)).comp (left 15 temperingMaskC (by decide))).comp
    ((left 7 temperingMaskB (by decide)).comp (right 11 (by decide)))

/-! ## Words of 32 bits -/

/-- An `unsigned long` that would fit into 32 bits. -/
def IsWord (word : BitVec 64) : Prop :=
  word.toNat < 2 ^ 32

theorem isWord_and
    (word : BitVec 64)
    {mask : BitVec 64}
    (small : IsWord mask) :
    IsWord (word &&& mask) := by
  rw [IsWord, BitVec.toNat_and]
  exact Nat.and_lt_two_pow _ small

theorem IsWord.xor
    {word other : BitVec 64}
    (isWord : IsWord word)
    (isOther : IsWord other) :
    IsWord (word ^^^ other) := by
  rw [IsWord, BitVec.toNat_xor]
  exact Nat.xor_lt_two_pow isWord isOther

theorem IsWord.ushiftRight
    {word : BitVec 64}
    (isWord : IsWord word)
    (shift : Nat) :
    IsWord (word >>> shift) := by
  rw [IsWord, BitVec.toNat_ushiftRight]
  exact Nat.lt_of_le_of_lt (Nat.shiftRight_le _ _) isWord

theorem isWord_mag01 (bit : BitVec 64) : IsWord (mag01 bit) := by
  rw [mag01]
  split
  · exact (by decide : (0 : BitVec 64).toNat < 2 ^ 32)
  · exact (by decide : matrixA.toNat < 2 ^ 32)

theorem isWord_mask : IsWord 0xffffffff :=
  (by decide : (0xffffffff : BitVec 64).toNat < 2 ^ 32)

theorem isWord_seeded (seed : BitVec 64) (place : Nat) : IsWord (seeded seed place) := by
  cases place with
  | zero =>
      exact isWord_and _ isWord_mask
  | succ place =>
      exact isWord_and _ isWord_mask

theorem isWord_nextWord
    (word behind : BitVec 64)
    {other : BitVec 64}
    (isWord : IsWord other) :
    IsWord (nextWord word behind other) := by
  have isMixed : IsWord ((word &&& upperMask) ||| (behind &&& lowerMask)) := by
    rw [IsWord, BitVec.toNat_or]
    exact Nat.or_lt_two_pow (isWord_and word (by decide : upperMask.toNat < 2 ^ 32))
      (isWord_and behind (by decide : lowerMask.toNat < 2 ^ 32))
  exact (isWord.xor (isMixed.ushiftRight 1)).xor (isWord_mag01 _)

theorem isWord_words (seed : BitVec 64) (place : Nat) : IsWord (words seed place) := by
  induction place using Nat.strong_induction_on with
  | _ place inductionHypothesis =>
      by_cases inside : place < 624
      · rw [words_of_lt seed inside]
        exact isWord_seeded seed place
      · obtain ⟨before, rfl⟩ : ∃ before, place = before + 624 := ⟨place - 624, by omega⟩
        have isNext : words seed (before + 624) = nextWord _ _ _ :=
          words_obey seed before
        rw [isNext]
        exact isWord_nextWord _ _ (inductionHypothesis (before + 397) (by omega))

theorem IsWord.mix
    {word mask : BitVec 64}
    (isWord : IsWord word)
    (shift : Nat)
    (isMask : IsWord mask) :
    IsWord (word ^^^ ((word <<< shift) &&& mask)) :=
  isWord.xor (isWord_and (word <<< shift) isMask)

theorem IsWord.temper
    {word : BitVec 64}
    (isWord : IsWord word) :
    IsWord (temper word) := by
  have isMaskB : IsWord temperingMaskB := by
    exact (by decide : temperingMaskB.toNat < 2 ^ 32)
  have isMaskC : IsWord temperingMaskC := by
    exact (by decide : temperingMaskC.toNat < 2 ^ 32)
  have first := isWord.xor (isWord.ushiftRight 11)
  have third := (first.mix 7 isMaskB).mix 15 isMaskC
  exact third.xor (third.ushiftRight 18)

/-! ## The numbers -/

/--
The numbers that are drawn are those of the sequence that goes on from the words of
the seed, in their order, and all have 32 bits.  Without a seed they are those of 4357.
-/
theorem draws_numbers
    (context : MtContext)
    (seed : BitVec 64)
    (count : Nat) :
    ((sgenrand context seed).bind (draws count)).map Prod.fst =
        some ((List.range count).map (number seed)) ∧
      (draws (count + 1) { context with mti := periodN + 1 }).map Prod.fst =
        some ((List.range (count + 1)).map (number 4357)) ∧
      ∀ draw, (number seed draw).toNat < 2 ^ 32 := by
  refine ⟨?_, ?_, fun draw => (isWord_words seed _).temper⟩
  · obtain ⟨context', isDrawn, _⟩ := sgenrand_draws context seed count
    rw [isDrawn]
    rfl
  · obtain ⟨context', isDrawn, _⟩ := sgenrand_draws context 4357 (count + 1)
    have same : draws (count + 1) { context with mti := periodN + 1 } =
        (sgenrand context 4357).bind (draws (count + 1)) := by
      rw [draws, genrand_unseeded]
      cases sgenrand context 4357 with
      | none =>
          rfl
      | some seeded =>
          rfl
    rw [same, isDrawn]
    rfl

/-- What has been drawn is known from the sequence, and what is drawn next, too. -/
theorem draws_of_seed
    {context before : MtContext}
    {seed : BitVec 64}
    {start : Nat}
    {numbers : List (BitVec 64)}
    (ran : (sgenrand context seed).bind (draws start) = some (numbers, before))
    (count : Nat) :
    ∃ after, draws count before =
        some ((List.range' start count).map (number seed), after) ∧
      Generates (words seed) (start + count) after := by
  obtain ⟨context', isDrawn, generates⟩ := sgenrand_draws context seed start
  obtain rfl : context' = before := by
    rw [isDrawn] at ran
    exact (Prod.mk.inj (Option.some.inj ran)).2
  exact generates.draws (words_obey seed) count

/--
Two generators that have drawn the same 624 numbers, wherever they were, draw the same
numbers from then on.
-/
theorem draws_determined
    {context context' before before' after after' : MtContext}
    {seed seed' : BitVec 64}
    {start start' : Nat}
    {first first' numbers : List (BitVec 64)}
    (ran : (sgenrand context seed).bind (draws start) = some (first, before))
    (ran' : (sgenrand context' seed').bind (draws start') = some (first', before'))
    (drew : draws periodN before = some (numbers, after))
    (drew' : draws periodN before' = some (numbers, after'))
    (count : Nat) :
    (draws count after).map Prod.fst = (draws count after').map Prod.fst := by
  obtain ⟨middle, isDrawn, generates⟩ := draws_of_seed ran periodN
  obtain ⟨middle', isDrawn', generates'⟩ := draws_of_seed ran' periodN
  rw [drew] at isDrawn
  rw [drew'] at isDrawn'
  obtain ⟨isNumbers, rfl⟩ := Prod.mk.inj (Option.some.inj isDrawn)
  obtain ⟨isNumbers', rfl⟩ := Prod.mk.inj (Option.some.inj isDrawn')
  have sameNumbers : ∀ draw < periodN,
      number seed (start + draw) = number seed' (start' + draw) := by
    intro draw inside
    have same := congrArg (·[draw]?) (isNumbers.symm.trans isNumbers')
    simp only [List.getElem?_map] at same
    rw [List.getElem?_range' inside, List.getElem?_range' inside, Nat.one_mul] at same
    exact Option.some.inj same
  have block : ∀ place < periodN,
      words seed (periodN + start + place) = words seed' (periodN + start' + place) := by
    intro place inside
    rw [Nat.add_assoc, Nat.add_assoc]
    exact temper_injective (sameNumbers place inside)
  have sameWords := (words_obey seed).eq_of_block (words_obey seed') reaches block
  obtain ⟨_, isNext, _⟩ := generates.draws (words_obey seed) count
  obtain ⟨_, isNext', _⟩ := generates'.draws (words_obey seed') count
  rw [isNext, isNext', Option.map_some, Option.map_some]
  refine congrArg some ?_
  rw [List.range'_eq_map_range, List.range'_eq_map_range, List.map_map, List.map_map]
  apply List.map_congr_left
  intro draw _
  have same := sameWords (periodN + draw)
  rw [Nat.add_assoc, Nat.add_assoc, ← Nat.add_assoc start, ← Nat.add_assoc start'] at same
  exact congrArg temper same

/-- A seed whose 32 bits are 0 gives nothing but 0. -/
theorem number_eq_zero
    {seed : BitVec 64}
    (isZero : seed &&& 0xffffffff = 0)
    (draw : Nat) :
    number seed draw = 0 := by
  have zeroWords : ∀ place, words seed place = 0 := by
    intro place
    induction place using Nat.strong_induction_on with
    | _ place inductionHypothesis =>
        by_cases inside : place < 624
        · rw [words_of_lt seed inside]
          clear inside inductionHypothesis
          induction place with
          | zero =>
              exact isZero
          | succ place isBefore =>
              rw [seeded, isBefore]
              rfl
        · obtain ⟨before, rfl⟩ : ∃ before, place = before + 624 :=
            ⟨place - 624, by omega⟩
          have isNext : words seed (before + 624) = nextWord (words seed before)
            (words seed (before + 1)) (words seed (before + 397)) :=
              words_obey seed before
          rw [isNext, inductionHypothesis before (by omega),
            inductionHypothesis (before + 1) (by omega),
            inductionHypothesis (before + 397) (by omega)]
          decide
  rw [number, zeroWords]
  decide

/-- Two generators with the seed 0, of which one has drawn more numbers. -/
theorem draws_determined_zero :
    ∃ context before before' after after' first first' numbers,
      (sgenrand context 0).bind (draws 2) = some (first, before) ∧
        (sgenrand context 0).bind (draws 5) = some (first', before') ∧
        draws periodN before = some (numbers, after) ∧
        draws periodN before' = some (numbers, after') ∧
        (draws 7 after).map Prod.fst = (draws 7 after').map Prod.fst := by
  let context : MtContext := ⟨0, Vector.replicate 1023 0⟩
  have allZero : number 0 = fun _ => 0 := funext (number_eq_zero rfl)
  obtain ⟨before, ran, _⟩ := sgenrand_draws context 0 2
  obtain ⟨before', ran', _⟩ := sgenrand_draws context 0 5
  obtain ⟨after, drew, _⟩ := draws_of_seed ran periodN
  obtain ⟨after', drew', _⟩ := draws_of_seed ran' periodN
  rw [allZero, List.map_const', List.length_range'] at drew drew'
  exact ⟨context, before, before', after, after', _, _, _, ran, ran', drew, drew',
    draws_determined ran ran' drew drew' 7⟩

/-! ## The seed 0 -/

/-- A word of the next block is 0 only where the bits that it is made of are. -/
theorem nextWord_eq_zero
    {word behind : BitVec 64}
    (isZero : nextWord word behind 0 = 0) :
    word &&& upperMask = 0 ∧ behind &&& lowerMask = 0 := by
  have mixed : ∀ y : BitVec 64, y.toNat < 2 ^ 32 →
      (0 : BitVec 64) ^^^ (y >>> 1) ^^^ mag01 (y &&& 1) = 0 → y = 0 := by
    intro y small isZero
    rw [BitVec.ofNat_eq_ofNat, BitVec.zero_xor, BitVec.xor_eq_zero_iff, mag01] at isZero
    have half : (y >>> 1).toNat = y.toNat / 2 := by
      rw [BitVec.toNat_ushiftRight, Nat.shiftRight_eq_div_pow]
    have lowBit : (y &&& 1).toNat = y.toNat % 2 := by
      rw [BitVec.toNat_and]
      exact Nat.and_one_is_mod _
    split at isZero
    · rename_i isEven
      rw [isEven] at lowBit
      rw [isZero] at half
      have zeroHalf : 0 = y.toNat / 2 := half
      have zeroBit : 0 = y.toNat % 2 := lowBit
      exact BitVec.eq_of_toNat_eq (by omega : y.toNat = 0)
    · -- The constant has a bit that half of a word has not.
      rw [isZero] at half
      have isHalf : 0x9908b0df = y.toNat / 2 := half
      omega
  have small : ((word &&& upperMask) ||| (behind &&& lowerMask)).toNat < 2 ^ 32 := by
    rw [BitVec.toNat_or]
    exact Nat.or_lt_two_pow (isWord_and word (by decide : upperMask.toNat < 2 ^ 32))
      (isWord_and behind (by decide : lowerMask.toNat < 2 ^ 32))
  exact BitVec.or_eq_zero_iff.mp (mixed _ small isZero)

theorem IsWord.eq_zero
    {word : BitVec 64}
    (isWord : IsWord word)
    (upper : word &&& upperMask = 0)
    (lower : word &&& lowerMask = 0) :
    word = 0 := by
  have isMask : word &&& 0xffffffff = word := by
    apply BitVec.eq_of_toNat_eq
    rw [BitVec.toNat_and]
    exact (Nat.and_two_pow_sub_one_eq_mod word.toNat 32).trans (Nat.mod_eq_of_lt isWord)
  have isSum : (0xffffffff : BitVec 64) = upperMask ||| lowerMask := by
    decide
  rw [← isMask, isSum, BitVec.and_or_distrib_left, upper, lower]
  rfl

/-- Words that are 0 from the second block on are 0 from the second word on. -/
theorem words_eq_zero
    {seed : BitVec 64}
    (zeros : ∀ place, words seed (624 + place) = 0)
    (place : Nat) :
    words seed (place + 1) = 0 := by
  suffices below : ∀ rest start, start + rest = 624 → ∀ place, start < place →
      words seed place = 0 from
    below 624 0 (Nat.zero_add 624) (place + 1) (Nat.succ_pos place)
  intro rest
  induction rest with
  | zero =>
      intro start isStart place isPlace
      obtain ⟨more, rfl⟩ := Nat.exists_eq_add_of_le (by omega : 624 ≤ place)
      exact zeros more
  | succ rest inductionHypothesis =>
      intro start isStart place isPlace
      have later := inductionHypothesis (start + 1) (by omega)
      by_cases isNext : place = start + 1
      · subst isNext
        have isMade : ∀ before, start ≤ before → nextWord (words seed before)
            (words seed (before + 1)) 0 = 0 := by
          intro before isBefore
          have isWord : words seed (before + 624) = nextWord (words seed before)
            (words seed (before + 1)) (words seed (before + 397)) :=
              words_obey seed before
          rw [later (before + 624) (by omega), later (before + 397) (by omega)] at isWord
          exact isWord.symm
        exact (isWord_words seed (start + 1)).eq_zero
          (nextWord_eq_zero (isMade (start + 1) (Nat.le_succ start))).1
          (nextWord_eq_zero (isMade start (Nat.le_refl start))).2
      · exact later place (by omega)

/-- The generator draws nothing but 0 exactly for the seeds with 32 zero bits. -/
theorem draws_zero_iff (context : MtContext) (seed : BitVec 64) :
    (∀ count, ((sgenrand context seed).bind (draws count)).map Prod.fst =
      some (List.replicate count 0)) ↔ seed.setWidth 32 = 0 := by
  have isMasked : seed &&& 0xffffffff = 0 ↔ seed.setWidth 32 = 0 := by
    rw [← BitVec.toNat_inj, ← BitVec.toNat_inj, BitVec.toNat_and,
      BitVec.toNat_setWidth]
    change seed.toNat &&& (2 ^ 32 - 1) = 0 ↔ seed.toNat % 2 ^ 32 = 0
    rw [Nat.and_two_pow_sub_one_eq_mod]
  rw [← isMasked]
  constructor
  · intro zeros
    have isZero : ∀ draw, number seed draw = 0 := by
      intro draw
      obtain ⟨_, isDrawn, _⟩ := sgenrand_draws context seed (draw + 1)
      have same := zeros (draw + 1)
      rw [isDrawn, Option.map_some] at same
      have isLast := congrArg (·[draw]?) (Option.some.inj same)
      simp only [List.getElem?_map, List.getElem?_replicate] at isLast
      rw [List.getElem?_range (Nat.lt_succ_self draw),
        if_pos (Nat.lt_succ_self draw)] at isLast
      exact Option.some.inj isLast
    have isSecond : words seed 1 = 0 :=
      words_eq_zero (fun place => temper_injective (isZero place)) 0
    rw [words_of_lt seed (by decide)] at isSecond
    have isProduct := congrArg BitVec.toNat isSecond
    rw [seeded, BitVec.toNat_and, BitVec.toNat_mul] at isProduct
    change 69069 * (seed &&& 0xffffffff).toNat % 2 ^ 64 &&& (2 ^ 32 - 1) = 0 at isProduct
    rw [Nat.and_two_pow_sub_one_eq_mod] at isProduct
    have small : (seed &&& 0xffffffff).toNat < 2 ^ 32 := isWord_and seed isWord_mask
    rw [Nat.mod_mod_of_dvd _ (Nat.pow_dvd_pow 2 (by decide : 32 ≤ 64))] at isProduct
    have divides := Nat.dvd_of_mod_eq_zero isProduct
    have coprime : Nat.Coprime (2 ^ 32) 69069 := Nat.Coprime.pow_left 32 (by decide)
    exact BitVec.eq_of_toNat_eq
      (Nat.eq_zero_of_dvd_of_lt (coprime.dvd_of_dvd_mul_left divides) small)
  · intro isZero count
    obtain ⟨_, isDrawn, _⟩ := sgenrand_draws context seed count
    have allZero : number seed = fun _ => 0 := funext (number_eq_zero isZero)
    rw [isDrawn, allZero, Option.map_some, List.map_const', List.length_range]

end Simbus.Mt
