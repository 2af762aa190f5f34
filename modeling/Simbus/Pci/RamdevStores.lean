import Simbus.Pci.Ramdev

/-!
# Writes to the memory device

The device keeps three stores: the memory behind the first region, the
registers behind the second, and the base address registers of its header.  A
write should change the enabled bytes of the word it addresses and nothing
else.  The registers take the other bytes from the memory, so a write there
keeps its promise only where both stores agree on those bytes.
-/

namespace Simbus.Pci

/-! ## Enabled bytes by lines -/

/-- The byte enables of a word are one of sixteen. -/
theorem exists_nibble (ben : BitVec 32) :
    ∃ enables : Fin 16, ben &&& 0xf = BitVec.ofNat 32 enables := by
  refine ⟨⟨ben.toNat % 16, Nat.mod_lt _ (by decide)⟩, ?_⟩
  apply BitVec.eq_of_toNat_eq
  rw [BitVec.toNat_and, BitVec.toNat_ofNat]
  change ben.toNat &&& 2 ^ 4 - 1 = ben.toNat % 16 % 2 ^ 32
  rw [Nat.and_two_pow_sub_one_eq_mod]
  omega

/-- A line of a word is written where its byte enable is low. -/
theorem getLsbD_beMask
    (ben : BitVec 32)
    (line : Fin 32) :
    (beMask ben).getLsbD line = !ben.getLsbD (line / 8) := by
  have nibbles : ∀ enables : Fin 16, ∀ line : Fin 32,
      (beMask (BitVec.ofNat 32 enables)).getLsbD line =
        !(BitVec.ofNat 32 enables).getLsbD (line / 8) := by
    decide +kernel
  have lane : (0xf : BitVec 32).getLsbD (line / 8) = true := by
    revert line
    decide
  obtain ⟨enables, isNibble⟩ := exists_nibble ben
  have ofNibble := nibbles enables line
  rw [← isNibble, beMask_low] at ofNibble
  rw [ofNibble, BitVec.getLsbD_and, lane, Bool.and_true]

/-- All lines but two are kept only where no byte is enabled. -/
theorem noneEnabled_of_beMask
    {ben : BitVec 32}
    (kept : ~~~(3 : BitVec 32) &&& beMask ben = 0) :
    ben &&& 0xf = 0xf := by
  have nibbles : ∀ enables : Fin 16,
      ~~~(3 : BitVec 32) &&& beMask (BitVec.ofNat 32 enables) = 0 →
        BitVec.ofNat 32 enables = 0xf#32 := by
    decide +kernel
  obtain ⟨enables, isNibble⟩ := exists_nibble ben
  rw [isNibble]
  apply nibbles
  rw [← isNibble, beMask_low, kept]

theorem mergeBytes_noneEnabled
    {ben : BitVec 32}
    (noneEnabled : ben &&& 0xf = 0xf)
    (val old : BitVec 32) :
    mergeBytes val ben old = old := by
  have noLine : beMask ben = 0#32 := by
    rw [← beMask_low, noneEnabled]
    decide
  rw [mergeBytes, noLine, BitVec.and_zero, BitVec.zero_or]
  exact BitVec.and_allOnes

/-- A line of a merged word. -/
theorem getLsbD_mergeBytes
    (val ben old : BitVec 32)
    (line : Fin 32) :
    (mergeBytes val ben old).getLsbD line =
      if ben.getLsbD (line / 8) then old.getLsbD line
      else val.getLsbD line := by
  have isLine : line.val < 32 := line.isLt
  simp only [mergeBytes, BitVec.getLsbD_or, BitVec.getLsbD_and,
    BitVec.getLsbD_not, getLsbD_beMask, isLine, decide_true, Bool.true_and,
    Bool.not_not]
  cases ben.getLsbD (line / 8) <;> simp

theorem mergeBytes_enabled
    (val ben old : BitVec 32) :
    mergeBytes val ben old &&& beMask ben = val &&& beMask ben := by
  rw [mergeBytes]
  apply BitVec.eq_of_getLsbD_eq
  intro line isLine
  simp only [BitVec.getLsbD_or, BitVec.getLsbD_and, BitVec.getLsbD_not]
  cases (beMask ben).getLsbD line <;> simp [isLine]

/-! ## Words and addresses -/

/-- An address that is put together from two registers, as a number. -/
theorem joinedWords_toNat (low high : BitVec 32) :
    (high.setWidth 64 <<< 32 ||| low.setWidth 64 : BitVec 64).toNat =
      high.toNat * 2 ^ 32 + low.toNat := by
  have lowBound := low.isLt
  have highBound := high.isLt
  have shifted : (high.setWidth 64 <<< 32 : BitVec 64).toNat =
      high.toNat <<< 32 := by
    rw [BitVec.toNat_shiftLeft, BitVec.toNat_setWidth,
      Nat.shiftLeft_eq, Nat.shiftLeft_eq]
    omega
  have low64 : (low.setWidth 64 : BitVec 64).toNat = low.toNat := by
    rw [BitVec.toNat_setWidth]
    omega
  rw [BitVec.toNat_or, shifted, low64,
    ← Nat.shiftLeft_add_eq_or_of_lt lowBound, Nat.shiftLeft_eq]

/-! ## Writes and the words they address -/

/-- A write to the memory, to the registers or to the header. -/
inductive RamWrite where
  | memory (addr : BitVec 64) (val ben : BitVec 32)
  | register (addr : BitVec 64) (val ben : BitVec 32)
  | header (addr : BitVec 64) (val ben : BitVec 32)
  deriving Repr, DecidableEq

/-- The callback that takes a write. -/
def RamWrite.receive : RamWrite → RamDevice → RamDevice
  | .memory addr val ben => bar0Recv32 addr val ben
  | .register addr val ben => bar2Recv32 addr val ben
  | .header addr val ben => configRecv32 addr val ben

/-- A sequence of writes. -/
def receiveAll (writes : List RamWrite) (device : RamDevice) : RamDevice :=
  writes.foldl (fun device write => write.receive device) device

@[simp] theorem receiveAll_nil (device : RamDevice) :
    receiveAll [] device = device :=
  rfl

theorem receiveAll_append
    (earlier later : List RamWrite)
    (device : RamDevice) :
    receiveAll (earlier ++ later) device =
      receiveAll later (receiveAll earlier device) :=
  List.foldl_append

@[simp] theorem receiveAll_cons
    (write : RamWrite)
    (later : List RamWrite)
    (device : RamDevice) :
    receiveAll (write :: later) device =
      receiveAll later (write.receive device) :=
  rfl

/-- A word of one of the three stores. -/
inductive RamPlace where
  | memory (word : Fin 0x4000)
  | register (word : Fin 0x800)
  | base (bar : Fin 4)
  deriving Repr, DecidableEq

namespace RamPlace

/-- The word of the header behind a base address register. -/
def headerOf (bar : Fin 4) : Fin 16 := ⟨bar.val + 4, by omega⟩

/-- What a place holds. -/
def content (ram : RamDev) : RamPlace → BitVec 32
  | .memory word => ram.memorySpace word
  | .register word => ram.bar2Mem word
  | .base bar => ram.configMem (headerOf bar)

/-- The lines of a place that a write does not choose. -/
def fixed : RamPlace → BitVec 32
  | .memory _ => 0
  | .register word =>
      -- The transfer count and the memory offset are multiples of 4.
      if word.val = 0x1004 / 4 ∨ word.val = 0x1010 / 4 then 3 else 0
  | .base 0 => ~~~bar0Mask
  | .base 2 => ~~~bar2Mask
  | .base _ => 0

/-- What those lines hold. -/
def fixedValue : RamPlace → BitVec 32
  | .base 0 => bar0Flags
  | .base 2 => bar2Flags
  | _ => 0

/-- The enabled bytes of a word are written, the others keep their value. -/
def Merges
    (place : RamPlace)
    (val ben old new : BitVec 32) : Prop :=
  ∀ line : Fin 32,
    new.getLsbD line =
      if place.fixed.getLsbD line then place.fixedValue.getLsbD line
      else if ben.getLsbD (line / 8) then old.getLsbD line
      else val.getLsbD line

theorem fixedValue_within
    (place : RamPlace) :
    place.fixedValue &&& place.fixed = place.fixedValue := by
  cases place with
  | memory word => simp [fixedValue]
  | register word => simp [fixedValue]
  | base bar =>
      revert bar
      decide

/-- The merged word as a word. -/
theorem merges_iff
    (place : RamPlace)
    (val ben old new : BitVec 32) :
    place.Merges val ben old new ↔
      new = mergeBytes val ben old &&& ~~~place.fixed |||
        place.fixedValue := by
  have lines : ∀ line : Fin 32,
      (mergeBytes val ben old &&& ~~~place.fixed |||
          place.fixedValue).getLsbD line =
        if place.fixed.getLsbD line then place.fixedValue.getLsbD line
        else if ben.getLsbD (line / 8) then old.getLsbD line
        else val.getLsbD line := by
    intro line
    have within :=
      congrArg (fun word => word.getLsbD line) place.fixedValue_within
    simp only [BitVec.getLsbD_and] at within
    have isLine : line.val < 32 := line.isLt
    rw [← getLsbD_mergeBytes, BitVec.getLsbD_or, BitVec.getLsbD_and,
      BitVec.getLsbD_not]
    cases isFixed : place.fixed.getLsbD line with
    | true => simp
    | false =>
        rw [isFixed, Bool.and_false] at within
        simp only [← within, Bool.not_false, isLine, decide_true,
          Bool.and_true, Bool.or_false, Bool.false_eq_true, if_false]
  constructor
  · intro merges
    apply BitVec.eq_of_getLsbD_eq
    intro line isLine
    exact (merges ⟨line, isLine⟩).trans (lines ⟨line, isLine⟩).symm
  · rintro rfl
    exact lines

end RamPlace

namespace RamWrite

/-- The base address register that a word of the header is. -/
def baseOf (word : Fin 16) : Option (Fin 4) :=
  if isBase : 4 ≤ word.val ∧ word.val < 8 then
    some ⟨word.val - 4, by omega⟩
  else
    none

/-- The place that a write addresses. -/
def place : RamWrite → Option RamPlace
  | .memory addr _ _ => some (.memory (bar0Word addr))
  | .register addr _ _ => some (.register (bar2Word addr))
  | .header addr _ _ =>
      ((configWord addr).bind baseOf).map RamPlace.base

/-- The word that a write carries. -/
def val : RamWrite → BitVec 32
  | .memory _ val _ => val
  | .register _ val _ => val
  | .header _ val _ => val

/-- The byte enables of a write. -/
def ben : RamWrite → BitVec 32
  | .memory _ _ ben => ben
  | .register _ _ ben => ben
  | .header _ _ ben => ben

/-- A read of what was written, through the callback of the region. -/
def readBack (ram : RamDev) : RamWrite → BitVec 32
  | .memory addr _ _ => bar0Need32 addr ram
  | .register addr _ _ => bar2Need32 addr ram
  | .header addr _ _ => configRead32 addr ram

theorem baseOf_eq_some
    {word : Fin 16}
    {bar : Fin 4}
    (isBase : baseOf word = some bar) :
    word = RamPlace.headerOf bar := by
  rw [baseOf] at isBase
  split at isBase
  · obtain rfl := Option.some.inj isBase
    apply Fin.ext
    simp only [RamPlace.headerOf]
    omega
  · cases isBase

theorem baseOf_headerOf (bar : Fin 4) :
    baseOf (RamPlace.headerOf bar) = some bar := by
  revert bar
  decide

/-- A read gives what the addressed place holds. -/
theorem readBack_eq
    {write : RamWrite}
    {place : RamPlace}
    (addressed : write.place = some place)
    (ram : RamDev) :
    write.readBack ram = place.content ram := by
  cases write with
  | memory addr val ben =>
      obtain rfl := Option.some.inj addressed
      rfl
  | register addr val ben =>
      obtain rfl := Option.some.inj addressed
      rfl
  | header addr val ben =>
      simp only [RamWrite.place, Option.map_eq_some_iff,
        Option.bind_eq_some_iff] at addressed
      obtain ⟨bar, ⟨word, isWord, isBase⟩, rfl⟩ := addressed
      simp only [readBack, configRead32, isWord, RamPlace.content,
        baseOf_eq_some isBase]

/--
What a write should leave: the merged word where it goes, as a read shows it,
and every other place as it was.
-/
structure Stores
    (write : RamWrite)
    (before after : RamDev) : Prop where
  merges : ∀ place, write.place = some place →
    place.Merges write.val write.ben (place.content before)
      (write.readBack after)
  keeps : ∀ place, write.place ≠ some place →
    place.content after = place.content before

end RamWrite

/-! ## What each write does -/

theorem and_allLines (word : BitVec 32) :
    word &&& 4294967295#32 = word :=
  BitVec.and_allOnes

/-- The header after a write to a base address register. -/
theorem configStore_base
    (bar : Fin 4)
    (val ben : BitVec 32)
    (mem : Fin 16 → BitVec 32) :
    configStore (RamPlace.headerOf bar) val ben mem =
      Function.update mem (RamPlace.headerOf bar)
        (mergeBytes val ben (mem (RamPlace.headerOf bar)) &&&
            ~~~(RamPlace.base bar).fixed |||
          (RamPlace.base bar).fixedValue) := by
  match bar with
  | 0 => simp [configStore, RamPlace.headerOf, RamPlace.fixed,
      RamPlace.fixedValue]
  | 1 => simp [configStore, RamPlace.headerOf, RamPlace.fixed,
      RamPlace.fixedValue, and_allLines]
  | 2 => simp [configStore, RamPlace.headerOf, RamPlace.fixed,
      RamPlace.fixedValue]
  | 3 => simp [configStore, RamPlace.headerOf, RamPlace.fixed,
      RamPlace.fixedValue, and_allLines]

/-- A write to another word of the header keeps the base address registers. -/
theorem configStore_other
    {word : Fin 16}
    {bar : Fin 4}
    (isOther : word ≠ RamPlace.headerOf bar)
    (val ben : BitVec 32)
    (mem : Fin 16 → BitVec 32) :
    configStore word val ben mem (RamPlace.headerOf bar) =
      mem (RamPlace.headerOf bar) := by
  have kept : ∀ changed,
      Function.update mem word changed (RamPlace.headerOf bar) =
        mem (RamPlace.headerOf bar) :=
    fun changed => Function.update_of_ne isOther.symm _ _
  unfold configStore
  split
  all_goals first | exact kept _ | rfl

section

variable {write : RamWrite}
variable {before after : RamDev}

/-- Where one place alone has changed, the store is right if its word is. -/
theorem RamWrite.stores_iff
    {place : RamPlace}
    (addressed : write.place = some place)
    (keeps : ∀ other, other ≠ place →
      other.content after = other.content before) :
    write.Stores before after ↔
      place.content after =
        mergeBytes write.val write.ben (place.content before) &&&
            ~~~place.fixed |||
          place.fixedValue := by
  rw [← place.merges_iff, ← RamWrite.readBack_eq addressed after]
  constructor
  · intro stores
    exact stores.merges place addressed
  · intro merges
    constructor
    · intro other isOther
      obtain rfl := Option.some.inj (addressed.symm.trans isOther)
      exact merges
    · intro other isOther
      apply keeps
      rintro rfl
      exact isOther addressed

/-- Where nothing has changed and no place is addressed, the store is right. -/
theorem RamWrite.stores_of_kept
    (nothing : write.place = none)
    (keeps : ∀ place : RamPlace,
      place.content after = place.content before) :
    write.Stores before after where
  merges := by
    intro place addressed
    rw [nothing] at addressed
    cases addressed
  keeps := fun place _ => keeps place

end

section

variable (addr : BitVec 64)
variable (val ben : BitVec 32)
variable (device : RamDevice)

theorem memory_stores :
    (RamWrite.memory addr val ben).Stores device.user
      (bar0Recv32 addr val ben device).user := by
  rw [RamWrite.stores_iff rfl]
  · simp [bar0Recv32, RamPlace.content, RamPlace.fixed, RamPlace.fixedValue,
      RamWrite.val, RamWrite.ben, and_allLines]
  · intro other isOther
    cases other with
    | memory word =>
        have isWord : word ≠ bar0Word addr := by
          rintro rfl
          exact isOther rfl
        exact Function.update_of_ne isWord _ _
    | register word => rfl
    | base bar => rfl

/-- The end of `config_recv32` leaves all three stores alone. -/
theorem mapRegions_content
    (place : RamPlace)
    (device : RamDevice) :
    place.content (mapRegions device).user = place.content device.user := by
  simp only [mapRegions, Device.memXlate]
  split <;> cases place <;> rfl

theorem header_stores :
    (RamWrite.header addr val ben).Stores device.user
      (configRecv32 addr val ben device).user := by
  cases isWord : configWord addr with
  | none =>
      apply RamWrite.stores_of_kept
      · simp [RamWrite.place, isWord]
      · intro place
        simp [configRecv32, isWord]
  | some word =>
      have contents : ∀ place : RamPlace,
          place.content (configRecv32 addr val ben device).user =
            place.content
              { device.user with
                configMem :=
                  configStore word val ben device.user.configMem } := by
        intro place
        simp only [configRecv32, isWord, mapRegions_content]
      cases isBase : RamWrite.baseOf word with
      | none =>
          apply RamWrite.stores_of_kept
          · simp [RamWrite.place, isWord, isBase]
          · intro place
            rw [contents]
            cases place with
            | memory word => rfl
            | register word => rfl
            | base bar =>
                apply configStore_other
                rintro rfl
                rw [RamWrite.baseOf_headerOf] at isBase
                cases isBase
      | some bar =>
          have isBar := RamWrite.baseOf_eq_some isBase
          have addressed :
              (RamWrite.header addr val ben).place = some (.base bar) := by
            simp [RamWrite.place, isWord, isBase]
          rw [RamWrite.stores_iff addressed]
          · rw [contents]
            simp only [RamPlace.content, isBar, configStore_base,
              Function.update_self]
            rfl
          · intro other isOther
            rw [contents]
            cases other with
            | memory word => rfl
            | register word => rfl
            | base otherBar =>
                apply configStore_other
                rw [isBar]
                intro same
                apply isOther
                have values := congrArg Fin.val same
                simp only [RamPlace.headerOf] at values
                rw [Fin.ext (by omega : otherBar.val = bar.val)]

end

/-! ## Registers -/

/-- The word of the memory that a register takes its other bytes from. -/
def memoryWord (word : Fin 0x800) : Fin 0x4000 := ⟨word.val, by omega⟩

section

variable (ram : RamDev)
variable (word : Fin 0x800)
variable (val ben : BitVec 32)

/--
The memory agrees with the register on the bytes that are not written.  The
merged count or offset is a multiple of 4, and not the last one.
-/
structure BytesAgree : Prop where
  others :
    ram.memorySpace (memoryWord word) &&& ~~~beMask ben =
      ram.bar2Mem word &&& ~~~beMask ben &&&
        ~~~(RamPlace.register word).fixed
  multiple :
    mergeBytes val ben (ram.memorySpace (memoryWord word)) &&&
      (RamPlace.register word).fixed = 0
  notLast : (RamPlace.register word).fixed = 3 →
    mergeBytes val ben (ram.memorySpace (memoryWord word)) ≠ 0xfffffffc

/--
No byte of a count or an offset of zero is written, and the memory holds the
one word that the reduction takes to zero.
-/
structure ReducedToZero : Prop where
  isMultiple : (RamPlace.register word).fixed = 3
  noneEnabled : ben &&& 0xf = 0xf
  memoryLast : ram.memorySpace (memoryWord word) = 0xfffffffc
  registerZero : ram.bar2Mem word &&& ~~~(3 : BitVec 32) = 0

end

/-- When a write keeps its promise. -/
def RamWrite.Agrees (ram : RamDev) : RamWrite → Prop
  | .memory _ _ _ => True
  | .register addr val ben =>
      BytesAgree ram (bar2Word addr) val ben ∨
        ReducedToZero ram (bar2Word addr) ben
  | .header _ _ _ => True

theorem fixed_register (word : Fin 0x800) :
    (RamPlace.register word).fixed = 0 ∨
      (RamPlace.register word).fixed = 3 := by
  rw [RamPlace.fixed]
  split
  · exact .inr rfl
  · exact .inl rfl

/-- A merge against a masked merge with another word. -/
theorem mergeBytes_eq_masked_iff
    (val ben first second fixed : BitVec 32) :
    mergeBytes val ben first = mergeBytes val ben second &&& ~~~fixed ↔
      first &&& ~~~beMask ben = second &&& ~~~beMask ben &&& ~~~fixed ∧
        mergeBytes val ben first &&& fixed = 0 := by
  rw [mergeBytes, mergeBytes]
  generalize beMask ben = mask
  simp only [BitVec.eq_of_getLsbD_eq_iff, ← forall_and]
  apply forall_congr'
  intro line
  by_cases isLine : line < 32
  · simp only [isLine, forall_const, BitVec.getLsbD_or, BitVec.getLsbD_and,
      BitVec.getLsbD_not, decide_true, Bool.true_and]
    cases mask.getLsbD line <;> cases fixed.getLsbD line <;> simp
  · simp only [isLine, false_implies]

/-- Clearing two lines rounds down to a multiple of 4. -/
theorem toNat_clearLow (word : BitVec 32) :
    (word &&& ~~~(3 : BitVec 32)).toNat = word.toNat / 4 * 4 := by
  have shifted : word &&& ~~~(3 : BitVec 32) = (word >>> 2) <<< 2 := by
    apply BitVec.eq_of_getLsbD_eq
    intro line isLine
    have lines : ∀ line : Fin 32,
        (~~~(3 : BitVec 32)).getLsbD line = decide (2 ≤ line.val) := by
      decide
    rw [BitVec.getLsbD_and, lines ⟨line, isLine⟩, BitVec.getLsbD_shiftLeft,
      BitVec.getLsbD_ushiftRight]
    by_cases isLow : line < 2
    · simp [isLow, Nat.not_le.mpr isLow]
    · have above : 2 + (line - 2) = line := by omega
      simp [isLow, isLine, Nat.not_lt.mp isLow, above]
  rw [shifted, BitVec.toNat_shiftLeft, BitVec.toNat_ushiftRight,
    Nat.shiftLeft_eq, Nat.shiftRight_eq_div_pow]
  have bounded := word.isLt
  omega

/-- The reduction is the masking below its modulus, and takes that to zero. -/
theorem reduced_eq_masked_iff
    (merged wanted : BitVec 32) :
    merged % 0xfffffffc = wanted &&& ~~~(3 : BitVec 32) ↔
      merged = wanted &&& ~~~(3 : BitVec 32) ∧ merged ≠ 0xfffffffc ∨
        merged = 0xfffffffc ∧ wanted &&& ~~~(3 : BitVec 32) = 0 := by
  have multiple : (wanted &&& ~~~(3 : BitVec 32)).toNat % 4 = 0 := by
    rw [toNat_clearLow]
    omega
  generalize wanted &&& ~~~(3 : BitVec 32) = masked at multiple ⊢
  have mergedBound := merged.isLt
  have maskedBound := masked.isLt
  simp only [← BitVec.toNat_inj, ne_eq, BitVec.toNat_umod]
  change merged.toNat % 4294967292 = masked.toNat ↔
    merged.toNat = masked.toNat ∧ ¬merged.toNat = 4294967292 ∨
      merged.toNat = 4294967292 ∧ masked.toNat = 0
  omega

theorem bar2Masked_eq
    (word : Fin 0x800)
    (merged : BitVec 32) :
    bar2Masked word merged =
      if (RamPlace.register word).fixed = 3 then merged % 0xfffffffc
      else merged := by
  rw [bar2Masked, RamPlace.fixed]
  split <;> rfl

/-- The last multiple of 4 is merged over zero only by nothing. -/
theorem reducedToZero_iff
    {val ben memory register : BitVec 32} :
    mergeBytes val ben memory = 0xfffffffc ∧
        mergeBytes val ben register &&& ~~~(3 : BitVec 32) = 0 ↔
      ben &&& 0xf = 0xf ∧ memory = 0xfffffffc ∧
        register &&& ~~~(3 : BitVec 32) = 0 := by
  constructor
  · rintro ⟨isLast, isZero⟩
    have noneEnabled : ben &&& 0xf = 0xf := by
      apply noneEnabled_of_beMask
      calc ~~~(3 : BitVec 32) &&& beMask ben
          = ~~~(3 : BitVec 32) &&&
              (mergeBytes val ben memory &&& beMask ben) := by
            rw [isLast, ← BitVec.and_assoc]
            rfl
        _ = ~~~(3 : BitVec 32) &&&
              (mergeBytes val ben register &&& beMask ben) := by
            rw [mergeBytes_enabled, mergeBytes_enabled]
        _ = (mergeBytes val ben register &&& ~~~(3 : BitVec 32)) &&&
              beMask ben := by
            rw [← BitVec.and_assoc,
              BitVec.and_comm (~~~(3 : BitVec 32)) (mergeBytes val ben register)]
        _ = 0 := by
            rw [isZero]
            exact BitVec.zero_and
    rw [mergeBytes_noneEnabled noneEnabled] at isLast isZero
    exact ⟨noneEnabled, isLast, isZero⟩
  · rintro ⟨noneEnabled, isLast, isZero⟩
    rw [mergeBytes_noneEnabled noneEnabled,
      mergeBytes_noneEnabled noneEnabled]
    exact ⟨isLast, isZero⟩

/-- What a register takes is the merged word exactly where the stores agree. -/
theorem bar2Masked_eq_iff
    (ram : RamDev)
    (word : Fin 0x800)
    (val ben : BitVec 32) :
    bar2Masked word
          (mergeBytes val ben (ram.memorySpace (memoryWord word))) =
        mergeBytes val ben (ram.bar2Mem word) &&&
          ~~~(RamPlace.register word).fixed ↔
      BytesAgree ram word val ben ∨ ReducedToZero ram word ben := by
  have agree : BytesAgree ram word val ben ↔
      mergeBytes val ben (ram.memorySpace (memoryWord word)) =
          mergeBytes val ben (ram.bar2Mem word) &&&
            ~~~(RamPlace.register word).fixed ∧
        ((RamPlace.register word).fixed = 3 →
          mergeBytes val ben (ram.memorySpace (memoryWord word)) ≠
            0xfffffffc) := by
    rw [mergeBytes_eq_masked_iff]
    constructor
    · rintro ⟨others, multiple, notLast⟩
      exact ⟨⟨others, multiple⟩, notLast⟩
    · rintro ⟨⟨others, multiple⟩, notLast⟩
      exact ⟨others, multiple, notLast⟩
  rw [bar2Masked_eq, agree]
  rcases fixed_register word with isFixed | isFixed
  · have notMultiple : ¬ReducedToZero ram word ben := by
      intro reduced
      have isMultiple := reduced.isMultiple
      rw [isFixed] at isMultiple
      exact absurd isMultiple (by decide)
    rw [isFixed, if_neg (by decide)]
    simp only [notMultiple, or_false, iff_self_and]
    intro _ isMultiple
    exact absurd isMultiple (by decide)
  · have reduced : ReducedToZero ram word ben ↔
        ben &&& 0xf = 0xf ∧
          ram.memorySpace (memoryWord word) = 0xfffffffc ∧
            ram.bar2Mem word &&& ~~~(3 : BitVec 32) = 0 := by
      constructor
      · rintro ⟨_, noneEnabled, memoryLast, registerZero⟩
        exact ⟨noneEnabled, memoryLast, registerZero⟩
      · rintro ⟨noneEnabled, memoryLast, registerZero⟩
        exact ⟨isFixed, noneEnabled, memoryLast, registerZero⟩
    rw [isFixed, if_pos rfl, reduced_eq_masked_iff, reduced,
      reducedToZero_iff]
    simp only [forall_const]

/-- A register write keeps its promise exactly where the stores agree. -/
theorem register_stores_iff
    (addr : BitVec 64)
    (val ben : BitVec 32)
    (device : RamDevice) :
    (RamWrite.register addr val ben).Stores device.user
        (bar2Recv32 addr val ben device).user ↔
      (RamWrite.register addr val ben).Agrees device.user := by
  have noValue : ∀ word : BitVec 32, word ||| 0 = word :=
    fun _ => BitVec.or_zero
  rw [RamWrite.stores_iff rfl]
  · have noFixed :
        (RamPlace.register (bar2Word addr)).fixedValue = 0 := rfl
    rw [noFixed, noValue]
    simp only [RamPlace.content, bar2Recv32, Function.update_self]
    exact bar2Masked_eq_iff device.user (bar2Word addr) val ben
  · intro other isOther
    cases other with
    | memory word => rfl
    | register word =>
        have isWord : word ≠ bar2Word addr := by
          rintro rfl
          exact isOther rfl
        exact Function.update_of_ne isWord _ _
    | base bar => rfl

/-- A write keeps its promise exactly under its condition. -/
theorem RamWrite.receive_stores_iff
    (write : RamWrite)
    (device : RamDevice) :
    write.Stores device.user (write.receive device).user ↔
      write.Agrees device.user := by
  cases write with
  | memory addr val ben =>
      exact iff_of_true (memory_stores addr val ben device) trivial
  | register addr val ben =>
      exact register_stores_iff addr val ben device
  | header addr val ben =>
      exact iff_of_true (header_stores addr val ben device) trivial

/-! ## Sequences of writes -/

/-- No write of a sequence addresses a place. -/
def Misses (place : RamPlace) (writes : List RamWrite) : Prop :=
  ∀ write ∈ writes, write.place ≠ some place

/--
Every write of a sequence stores what it should, and a later read returns it
as long as no other write comes to its place.
-/
structure StoresAll
    (writes : List RamWrite)
    (device : RamDevice) : Prop where
  each : ∀ earlier write later, writes = earlier ++ write :: later →
    write.Stores (receiveAll earlier device).user
      (receiveAll (earlier ++ [write]) device).user
  readLater : ∀ earlier write later rest,
    writes = earlier ++ write :: (later ++ rest) →
      ∀ place, write.place = some place → Misses place later →
        place.Merges write.val write.ben
          (place.content (receiveAll earlier device).user)
          (write.readBack
            (receiveAll (earlier ++ write :: later) device).user)

/-- Every write of a sequence meets its condition. -/
def AgreesAll (writes : List RamWrite) (device : RamDevice) : Prop :=
  ∀ earlier write later, writes = earlier ++ write :: later →
    write.Agrees (receiveAll earlier device).user

theorem receiveAll_last
    (earlier : List RamWrite)
    (write : RamWrite)
    (device : RamDevice) :
    receiveAll (earlier ++ [write]) device =
      write.receive (receiveAll earlier device) := by
  rw [receiveAll_append]
  rfl

/-- Under the condition, a place that is not addressed keeps its content. -/
theorem AgreesAll.keeps
    {writes : List RamWrite}
    {device : RamDevice}
    (agrees : AgreesAll writes device)
    {place : RamPlace}
    {earlier later rest : List RamWrite}
    (split : writes = earlier ++ (later ++ rest))
    (misses : Misses place later) :
    place.content (receiveAll (earlier ++ later) device).user =
      place.content (receiveAll earlier device).user := by
  induction later generalizing earlier with
  | nil =>
      rw [List.append_nil]
  | cons write later inductionHypothesis =>
      have further : writes = (earlier ++ [write]) ++ (later ++ rest) := by
        simpa using split
      have stores := (write.receive_stores_iff _).mpr
        (agrees earlier write (later ++ rest) split)
      have next := inductionHypothesis further
        fun other member => misses other (List.mem_cons_of_mem write member)
      rw [List.append_assoc, List.singleton_append] at next
      rw [next, receiveAll_last]
      exact stores.keeps place (misses write List.mem_cons_self)

/--
A sequence of writes changes what it should and no more exactly if every
register write meets its condition.
-/
theorem receiveAll_stores_iff
    (writes : List RamWrite)
    (device : RamDevice) :
    StoresAll writes device ↔ AgreesAll writes device := by
  constructor
  · intro stores earlier write later split
    have one := stores.each earlier write later split
    rw [receiveAll_last] at one
    exact (write.receive_stores_iff _).mp one
  · intro agrees
    have each : ∀ earlier write later, writes = earlier ++ write :: later →
        write.Stores (receiveAll earlier device).user
          (receiveAll (earlier ++ [write]) device).user := by
      intro earlier write later split
      rw [receiveAll_last]
      exact (write.receive_stores_iff _).mpr
        (agrees earlier write later split)
    refine ⟨each, ?_⟩
    intro earlier write later rest split place addressed misses
    have merges :=
      (each earlier write (later ++ rest) split).merges place addressed
    have further :
        writes = (earlier ++ [write]) ++ (later ++ rest) := by
      simpa using split
    have kept := agrees.keeps further misses
    rw [List.append_assoc, List.singleton_append] at kept
    rw [RamWrite.readBack_eq addressed] at merges ⊢
    rw [kept]
    exact merges

/-- A register loses a byte that the second write does not enable. -/
theorem register_byte_lost :
    ¬StoresAll [.register 0 0x100 0x0, .register 0 0x22 0xe]
      ramdevDevice := by
  intro stores
  have line := stores.readLater [.register 0 0x100 0x0]
    (.register 0 0x22 0xe) [] [] rfl (.register 0) rfl
    (fun _ member => nomatch member) 8
  revert line
  decide

end Simbus.Pci
