import Simbus.Pci.RamdevStores
import Simbus.Pci.Target

/-!
# The regions of the memory device

The device should claim an address while memory accesses are enabled and the
address lies in one of its two regions, as the base address registers give
them.  Writing the enable bit off sets the same translations again, so once a
region has been set up it stays claimed.
-/

namespace Simbus.Pci

open FourValued

/-! ## Masks of high bits -/

/-- Two words with the same high bits lie in the same block. -/
theorem highBits_eq_iff
    {width : Nat}
    (low : Nat)
    (first second : BitVec width) :
    (BitVec.allOnes width <<< low) &&& first =
        (BitVec.allOnes width <<< low) &&& second ↔
      first.toNat / 2 ^ low = second.toNat / 2 ^ low := by
  have lines : ∀ (word : BitVec width) line, line < width →
      ((BitVec.allOnes width <<< low) &&& word).getLsbD line =
        (decide (low ≤ line) && word.getLsbD line) := by
    intro word line isLine
    have shifted : line - low < width := by omega
    rw [BitVec.getLsbD_and, BitVec.getLsbD_shiftLeft,
      BitVec.getLsbD_allOnes]
    by_cases isLow : line < low
    · simp [isLow, Nat.not_le.mpr isLow]
    · simp [isLow, isLine, shifted, Nat.not_lt.mp isLow]
  have quotient : ∀ (word : BitVec width) line,
      (word.toNat / 2 ^ low).testBit line = word.getLsbD (line + low) := by
    intro word line
    rw [Nat.testBit_div_two_pow]
    rfl
  constructor
  · intro same
    apply Nat.eq_of_testBit_eq
    intro line
    rw [quotient, quotient]
    by_cases isLine : line + low < width
    · have both := congrArg (fun word => word.getLsbD (line + low)) same
      simpa [lines _ _ isLine] using both
    · rw [BitVec.getLsbD_of_ge _ _ (by omega),
        BitVec.getLsbD_of_ge _ _ (by omega)]
  · intro same
    apply BitVec.eq_of_getLsbD_eq
    intro line isLine
    rw [lines first line isLine, lines second line isLine]
    by_cases isLow : low ≤ line
    · have both := congrArg (fun block => block.testBit (line - low)) same
      simp only [quotient, Nat.sub_add_cancel isLow] at both
      rw [both]
    · simp [isLow]

/-! ## What the registers say -/

/-- An address lies in the region of some size that two registers give. -/
def InRegion (size : Nat) (low high : BitVec 32) (addr : BitVec 64) : Prop :=
  addr.toNat / size = (high.toNat * 2 ^ 32 + low.toNat) / size

/-- Bit 1 of the Command register. -/
def MemoryEnabled (ram : RamDev) : Prop :=
  ram.configMem 1 &&& 0x0002 ≠ 0

/-- The address lies in the region of BAR0 and BAR1. -/
def InBar0 (ram : RamDev) (addr : BitVec 64) : Prop :=
  InRegion 0x10000 (ram.configMem 4) (ram.configMem 5) addr

/-- The address lies in the region of BAR2 and BAR3. -/
def InBar2 (ram : RamDev) (addr : BitVec 64) : Prop :=
  InRegion 0x2000 (ram.configMem 6) (ram.configMem 7) addr

/-- A translation calls the handlers of the memory. -/
def CallsBar0 (region : SimbusTranslation RamHandle) : Prop :=
  region.need32 = some .bar0Need32 ∧ region.recv32 = some .bar0Recv32

/-- A translation calls the handlers of the registers. -/
def CallsBar2 (region : SimbusTranslation RamHandle) : Prop :=
  region.need32 = some .bar2Need32 ∧ region.recv32 = some .bar2Recv32

/--
The target claims the addresses that the registers say, and hands them to the
handlers of their regions.
-/
structure FollowsRegisters (pci : SimbusPci RamDev RamHandle) : Prop where
  claims : (∃ bar, matchMemTarget pci = some bar) ↔
    MemoryEnabled pci.device.user ∧
      (InBar0 pci.device.user (getAddr pci) ∨
        InBar2 pci.device.user (getAddr pci))
  routes : ∀ bar, matchMemTarget pci = some bar →
    InBar0 pci.device.user (getAddr pci) ∧ CallsBar0 (barOf pci bar) ∨
      InBar2 pci.device.user (getAddr pci) ∧ CallsBar2 (barOf pci bar)

/-! ## Writes to the memory enable -/

/-- The memory enable after a write. -/
def enableAfter (enabled : Bool) : RamWrite → Bool
  | .header addr val ben =>
      if configWord addr = some 1 ∧ ben.getLsbD 0 = false then
        val.getLsbD 1
      else
        enabled
  | _ => enabled

/-- The memory enable after a sequence of writes, from the reset. -/
def enabledBy (writes : List RamWrite) : Bool :=
  writes.foldl enableAfter false

/-- The memory enable has been on at some point of a sequence. -/
def EverEnabled (writes : List RamWrite) : Prop :=
  ∃ earlier, earlier <+: writes ∧ enabledBy earlier = true

theorem everEnabled_last
    (writes : List RamWrite)
    (write : RamWrite) :
    EverEnabled (writes ++ [write]) ↔
      EverEnabled writes ∨ enabledBy (writes ++ [write]) = true := by
  constructor
  · rintro ⟨earlier, isPrefix, enabled⟩
    rcases List.prefix_concat_iff.mp isPrefix with rfl | isPrefix
    · exact .inr enabled
    · exact .inl ⟨earlier, isPrefix, enabled⟩
  · rintro (⟨earlier, isPrefix, enabled⟩ | enabled)
    · exact ⟨earlier, isPrefix.trans (List.prefix_append _ _), enabled⟩
    · exact ⟨writes ++ [write], List.prefix_rfl, enabled⟩

/-! ## What a write does to the translations -/

/-- Both translations are those of some registers. -/
def MapsFrom (registers : Fin 16 → BitVec 32) (ram : RamDev) : Prop :=
  (∃ old, ram.bar0Map =
      regionOf (registers 4) (registers 5) bar0Mask .bar0Need32
        .bar0Recv32 old) ∧
    ∃ old, ram.bar2Map =
      regionOf (registers 6) (registers 7) bar2Mask .bar2Need32
        .bar2Recv32 old

/-- The regions of the target are the translations of the device. -/
structure UsesMaps (device : RamDevice) : Prop where
  first : device.memTarget 0 = device.user.bar0Map
  second : device.memTarget 2 = device.user.bar2Map
  others : ∀ bar, bar ≠ 0 → bar ≠ 2 → device.memTarget bar = .unused

/-- What a write does to the translations and to the memory enable. -/
structure Remaps
    (write : RamWrite)
    (before after : RamDevice) : Prop where
  uses : UsesMaps before → UsesMaps after
  enables : ∀ enabled : Bool, (MemoryEnabled before.user ↔ enabled = true) →
    (MemoryEnabled after.user ↔ enableAfter enabled write = true)
  renewed : MemoryEnabled after.user →
    MapsFrom after.user.configMem after.user ∨
      after.user.configMem = before.user.configMem ∧
        after.user.bar0Map = before.user.bar0Map ∧
        after.user.bar2Map = before.user.bar2Map
  kept : ¬MemoryEnabled after.user →
    after.user.bar0Map = before.user.bar0Map ∧
      after.user.bar2Map = before.user.bar2Map

theorem and_two_ne_zero_iff (word : BitVec 32) :
    word &&& 0x0002 ≠ 0 ↔ word.getLsbD 1 = true := by
  have isPower : (0x0002 : BitVec 32) = BitVec.twoPow 32 1 := by decide
  rw [isPower, BitVec.and_twoPow]
  cases word.getLsbD 1 with
  | true => exact iff_of_true (by decide) rfl
  | false => simp

/-- The memory enable after a write to the header. -/
theorem configStore_enable
    (word : Fin 16)
    (val ben : BitVec 32)
    (mem : Fin 16 → BitVec 32) :
    configStore word val ben mem 1 &&& 0x0002 ≠ 0 ↔
      if word = 1 ∧ ben.getLsbD 0 = false then val.getLsbD 1 = true
      else mem 1 &&& 0x0002 ≠ 0 := by
  simp only [and_two_ne_zero_iff]
  by_cases isCommand : word = 1
  · subst isCommand
    have written : (beMask ben).getLsbD 1 = !ben.getLsbD 0 :=
      getLsbD_beMask ben 1
    have lines : (0x0006 : BitVec 32).getLsbD 1 = true ∧
        (0xffff : BitVec 32).getLsbD 1 = true := by
      decide
    simp only [configStore, Function.update_self, BitVec.getLsbD_or,
      BitVec.getLsbD_and, BitVec.getLsbD_not, written, lines.1, lines.2]
    cases ben.getLsbD 0 <;> simp
  · have kept : configStore word val ben mem 1 = mem 1 := by
      have other : ∀ changed, Function.update mem word changed 1 = mem 1 :=
        fun changed => Function.update_of_ne (Ne.symm isCommand) _ _
      unfold configStore
      split
      · exact absurd rfl isCommand
      all_goals first | exact other _ | rfl
    rw [kept]
    simp [isCommand]

/-- A write outside the header changes no translation. -/
theorem remaps_of_same
    {write : RamWrite}
    {before after : RamDevice}
    (sameEnable : ∀ enabled, enableAfter enabled write = enabled)
    (sameTarget : after.memTarget = before.memTarget)
    (sameMem : after.user.configMem = before.user.configMem)
    (sameFirst : after.user.bar0Map = before.user.bar0Map)
    (sameSecond : after.user.bar2Map = before.user.bar2Map) :
    Remaps write before after where
  uses := by
    rintro ⟨first, second, others⟩
    rw [← sameTarget, ← sameFirst] at first
    rw [← sameTarget, ← sameSecond] at second
    rw [← sameTarget] at others
    exact ⟨first, second, others⟩
  enables := by
    intro enabled isEnabled
    rw [sameEnable, ← isEnabled, MemoryEnabled, MemoryEnabled, sameMem]
  renewed := fun _ => .inr ⟨sameMem, sameFirst, sameSecond⟩
  kept := fun _ => ⟨sameFirst, sameSecond⟩

/-- The end of `config_recv32` makes the regions those of the maps. -/
theorem mapRegions_uses
    {device : RamDevice}
    (others : ∀ bar, bar ≠ 0 → bar ≠ 2 → device.memTarget bar = .unused) :
    UsesMaps (mapRegions device) := by
  constructor
  · simp [mapRegions, Device.memXlate]
  · simp [mapRegions, Device.memXlate]
  · intro bar notFirst notSecond
    have notZero : bar.val ≠ 0 := fun same => notFirst (Fin.ext same)
    have notTwo : bar.val ≠ 2 := fun same => notSecond (Fin.ext same)
    simp only [mapRegions, Device.memXlate, notZero, notTwo, if_false]
    exact others bar notFirst notSecond

theorem mapRegions_enabled
    {device : RamDevice}
    (enabled : MemoryEnabled device.user) :
    MapsFrom device.user.configMem (mapRegions device).user := by
  rw [MemoryEnabled] at enabled
  simp only [mapRegions, Device.memXlate, if_pos enabled]
  exact ⟨⟨_, rfl⟩, ⟨_, rfl⟩⟩

/-- Without memory enable the maps stay as they are. -/
theorem mapRegions_disabled
    {device : RamDevice}
    (disabled : ¬MemoryEnabled device.user) :
    (mapRegions device).user = device.user := by
  rw [MemoryEnabled] at disabled
  simp only [mapRegions, Device.memXlate, if_neg disabled]

/-- Every write changes the translations in one of these ways. -/
theorem receive_remaps
    (write : RamWrite)
    (device : RamDevice) :
    Remaps write device (write.receive device) := by
  cases write with
  | memory addr val ben =>
      exact remaps_of_same (fun _ => rfl) rfl rfl rfl rfl
  | register addr val ben =>
      exact remaps_of_same (fun _ => rfl) rfl rfl rfl rfl
  | header addr val ben =>
      cases isWord : configWord addr with
      | none =>
          have unchanged : (RamWrite.header addr val ben).receive device =
              device := by
            simp only [RamWrite.receive, configRecv32, isWord]
          rw [unchanged]
          apply remaps_of_same _ rfl rfl rfl rfl
          intro enabled
          simp [enableAfter, isWord]
      | some word =>
          let stored : RamDevice :=
            { device with
              user :=
                { device.user with
                  configMem :=
                    configStore word val ben device.user.configMem } }
          have received : (RamWrite.header addr val ben).receive device =
              mapRegions stored := by
            simp only [RamWrite.receive, configRecv32, isWord, stored]
          have sameEnable :
              MemoryEnabled (mapRegions stored).user ↔
                MemoryEnabled stored.user := by
            rw [MemoryEnabled, MemoryEnabled, mapRegions_configMem]
          rw [received]
          constructor
          · intro uses
            exact mapRegions_uses uses.others
          · intro enabled isEnabled
            rw [MemoryEnabled] at isEnabled
            rw [sameEnable, MemoryEnabled]
            simp only [stored, configStore_enable, enableAfter, isWord,
              isEnabled]
            split <;> simp_all
          · intro enabled
            rw [mapRegions_configMem]
            exact .inl (mapRegions_enabled (sameEnable.mp enabled))
          · intro disabled
            rw [mapRegions_disabled (mt sameEnable.mpr disabled)]
            exact ⟨rfl, rfl⟩

/-! ## After a sequence of writes -/

/-- The device after `main`, with the identifier it was started with. -/
def identifiedDevice (ident : BitVec 32) : RamDevice :=
  { ramdevDevice with
    user :=
      { RamDev.init with
        configMem := Function.update prefilledConfig 0 ident } }

/-- The translations against what has been written so far. -/
structure MapsAfter
    (writes : List RamWrite)
    (device : RamDevice) : Prop where
  uses : UsesMaps device
  enabled : MemoryEnabled device.user ↔ enabledBy writes = true
  never : ¬EverEnabled writes →
    device.user.bar0Map = .unused ∧ device.user.bar2Map = .unused
  ever : EverEnabled writes →
    ∃ registers, MapsFrom registers device.user ∧
      (MemoryEnabled device.user → registers = device.user.configMem)

theorem mapsAfter_nil (ident : BitVec 32) :
    MapsAfter [] (identifiedDevice ident) where
  uses := ⟨rfl, rfl, fun _ _ _ => rfl⟩
  enabled := by
    apply iff_of_false
    · intro enabled
      apply enabled
      have isReset :
          Function.update prefilledConfig 0 ident 1 = prefilledConfig 1 :=
        Function.update_of_ne (by decide) _ _
      change Function.update prefilledConfig 0 ident 1 &&& _ = _
      rw [isReset]
      decide
    · exact Bool.false_ne_true
  never := fun _ => ⟨rfl, rfl⟩
  ever := by
    rintro ⟨earlier, isPrefix, enabled⟩
    rw [List.prefix_nil.mp isPrefix] at enabled
    exact absurd enabled Bool.false_ne_true

/-- One write. -/
theorem MapsAfter.receive
    {writes : List RamWrite}
    {write : RamWrite}
    {before after : RamDevice}
    (maps : MapsAfter writes before)
    (remaps : Remaps write before after) :
    MapsAfter (writes ++ [write]) after := by
  have enabled :
      MemoryEnabled after.user ↔ enabledBy (writes ++ [write]) = true := by
    rw [enabledBy, List.foldl_append]
    exact remaps.enables _ maps.enabled
  refine ⟨remaps.uses maps.uses, enabled, ?_, ?_⟩
  · intro never
    rw [everEnabled_last, not_or, ← enabled] at never
    obtain ⟨sameFirst, sameSecond⟩ := remaps.kept never.2
    rw [sameFirst, sameSecond]
    exact maps.never never.1
  · intro ever
    by_cases isEnabled : MemoryEnabled after.user
    · rcases remaps.renewed isEnabled with renewed | ⟨sameMem, first, second⟩
      · exact ⟨_, renewed, fun _ => rfl⟩
      · -- Nothing was written to the header, so it was enabled before.
        have wasEnabled : MemoryEnabled before.user := by
          rw [MemoryEnabled, ← sameMem]
          exact isEnabled
        obtain ⟨registers, mapsFrom, current⟩ :=
          maps.ever ⟨writes, List.prefix_rfl, maps.enabled.mp wasEnabled⟩
        refine ⟨registers, ?_, ?_⟩
        · rw [MapsFrom, first, second]
          exact mapsFrom
        · intro _
          rw [sameMem]
          exact current wasEnabled
    · rw [everEnabled_last, ← enabled] at ever
      obtain ⟨registers, mapsFrom, _⟩ :=
        maps.ever (ever.resolve_right isEnabled)
      obtain ⟨first, second⟩ := remaps.kept isEnabled
      refine ⟨registers, ?_, fun enabledAfter => absurd enabledAfter isEnabled⟩
      rw [MapsFrom, first, second]
      exact mapsFrom

/-- Every sequence of writes. -/
theorem mapsAfter_receiveAll
    (ident : BitVec 32)
    (writes : List RamWrite) :
    MapsAfter writes (receiveAll writes (identifiedDevice ident)) := by
  induction writes using List.reverseRecOn with
  | nil =>
      exact mapsAfter_nil ident
  | append_singleton writes write inductionHypothesis =>
      rw [receiveAll_last]
      exact inductionHypothesis.receive (receive_remaps write _)

/-! ## Which addresses match -/

/-- A translation claims the addresses of its block. -/
theorem regionOf_claims_iff
    (size : Nat)
    {mask : BitVec 32}
    (isSize : 0xffffffff00000000 ||| mask.setWidth 64 =
      BitVec.allOnes 64 <<< size)
    (within : size < 64)
    (low high : BitVec 32)
    (need32 recv32 : RamHandle)
    (old : SimbusTranslation RamHandle)
    (addr : BitVec 64) :
    (regionOf low high mask need32 recv32 old).claims addr ↔
      InRegion (2 ^ size) low high addr := by
  have nonzero : BitVec.allOnes 64 <<< size ≠ 0 := by
    intro isZero
    have line := congrArg (fun word => word.getLsbD size) isZero
    simp [within] at line
  rw [SimbusTranslation.claims, regionOf]
  dsimp only
  rw [isSize, highBits_eq_iff, joinedWords_toNat, InRegion]
  exact ⟨fun claims => claims.2.symm, fun inside => ⟨nonzero, inside.symm⟩⟩

theorem unused_not_claims (addr : BitVec 64) :
    ¬(SimbusTranslation.unused : SimbusTranslation RamHandle).claims addr :=
  fun claims => claims.1 rfl

/-- Only two regions of the device can match. -/
theorem matchMemTarget_uses
    {pci : SimbusPci RamDev RamHandle}
    (uses : UsesMaps pci.device) :
    matchMemTarget pci =
      if pci.device.user.bar0Map.claims (getAddr pci) then some 0
      else if pci.device.user.bar2Map.claims (getAddr pci) then some 2
      else none := by
  have other : ∀ bar, bar ≠ 0 → bar ≠ 2 →
      ¬(pci.device.memTarget bar).claims (getAddr pci) := by
    intro bar notFirst notSecond
    rw [uses.others bar notFirst notSecond]
    exact unused_not_claims _
  have regions : List.finRange 8 = [0, 1, 2, 3, 4, 5, 6, 7] := by decide
  rw [matchMemTarget, regions, ← uses.first, ← uses.second]
  simp only [List.find?_cons, List.find?_nil,
    other 1 (by decide) (by decide), other 3 (by decide) (by decide),
    other 4 (by decide) (by decide), other 5 (by decide) (by decide),
    other 6 (by decide) (by decide), other 7 (by decide) (by decide),
    decide_false]
  by_cases first : (pci.device.memTarget 0).claims (getAddr pci)
  · simp [first]
  · by_cases second : (pci.device.memTarget 2).claims (getAddr pci)
    · simp [first, second]
    · simp [first, second]

/-- With the translations of some registers, the claims are by blocks. -/
theorem MapsFrom.claims_iff
    {registers : Fin 16 → BitVec 32}
    {ram : RamDev}
    (mapsFrom : MapsFrom registers ram)
    (addr : BitVec 64) :
    (ram.bar0Map.claims addr ↔
        InRegion 0x10000 (registers 4) (registers 5) addr) ∧
      (ram.bar2Map.claims addr ↔
        InRegion 0x2000 (registers 6) (registers 7) addr) := by
  obtain ⟨⟨_, isFirst⟩, ⟨_, isSecond⟩⟩ := mapsFrom
  rw [isFirst, isSecond]
  constructor
  · exact regionOf_claims_iff 16 (by decide) (by decide) _ _ _ _ _ _
  · exact regionOf_claims_iff 13 (by decide) (by decide) _ _ _ _ _ _

/-- While the maps are those of the registers, the target follows them. -/
theorem followsRegisters_of_enabled
    {pci : SimbusPci RamDev RamHandle}
    (uses : UsesMaps pci.device)
    (enabled : MemoryEnabled pci.device.user)
    (mapsFrom : MapsFrom pci.device.user.configMem pci.device.user) :
    FollowsRegisters pci := by
  have matched := matchMemTarget_uses uses
  obtain ⟨first, second⟩ := mapsFrom.claims_iff (getAddr pci)
  obtain ⟨⟨_, isFirst⟩, ⟨_, isSecond⟩⟩ := mapsFrom
  rw [← InBar0] at first
  rw [← InBar2] at second
  constructor
  · rw [matched, ← first, ← second]
    split
    case isTrue claims => simp [claims, enabled]
    case isFalse notFirst =>
      split
      case isTrue claims => simp [claims, enabled]
      case isFalse notSecond => simp [notFirst, notSecond]
  · intro bar isBar
    rw [matched] at isBar
    split at isBar
    case isTrue claims =>
      obtain rfl := Option.some.inj isBar
      refine .inl ⟨first.mp claims, ?_⟩
      rw [barOf, uses.first, isFirst]
      exact ⟨rfl, rfl⟩
    case isFalse notFirst =>
      split at isBar
      case isTrue claims =>
        obtain rfl := Option.some.inj isBar
        refine .inr ⟨second.mp claims, ?_⟩
        rw [barOf, uses.second, isSecond]
        exact ⟨rfl, rfl⟩
      case isFalse notSecond => cases isBar

/-- Before any region is set up, nothing is claimed. -/
theorem followsRegisters_of_unused
    {pci : SimbusPci RamDev RamHandle}
    (uses : UsesMaps pci.device)
    (disabled : ¬MemoryEnabled pci.device.user)
    (first : pci.device.user.bar0Map = .unused)
    (second : pci.device.user.bar2Map = .unused) :
    FollowsRegisters pci := by
  have matched := matchMemTarget_uses uses
  rw [first, second, if_neg (unused_not_claims _),
    if_neg (unused_not_claims _)] at matched
  constructor
  · rw [matched]
    simp [disabled]
  · intro bar isBar
    rw [matched] at isBar
    cases isBar

/-- A client of the device that has seen a dual address cycle. -/
def addressedClient
    (device : RamDevice)
    (addr : BitVec 64) : SimbusPci RamDev RamHandle :=
  let zeroed : SimbusPci RamDev RamHandle :=
    SimbusPci.init 0 (fun _ => 0) device.user
  { zeroed with device := device, targetState := .dac, dacAddrLo := addr }

theorem getAddr_addressedClient
    (device : RamDevice)
    (addr : BitVec 64) :
    getAddr (addressedClient device addr) = addr := by
  have noLine : getLowWord (addressedClient device addr) = 0 := by
    apply BitVec.eq_of_getElem_eq
    intro line isLine
    simp [getLowWord, addressedClient, SimbusPci.init, getElem_sampleWord,
      BiSignals.ofBits]
  rw [getAddr, getAddr32, noLine, if_neg (by simp [addressedClient])]
  simp [addressedClient]

/-- A region that stays set up is claimed without memory enable. -/
theorem not_followsRegisters
    {device : RamDevice}
    {registers : Fin 16 → BitVec 32}
    (uses : UsesMaps device)
    (disabled : ¬MemoryEnabled device.user)
    (mapsFrom : MapsFrom registers device.user) :
    ∃ pci : SimbusPci RamDev RamHandle,
      pci.device = device ∧ ¬FollowsRegisters pci := by
  let addr : BitVec 64 :=
    (registers 5).setWidth 64 <<< 32 ||| (registers 4).setWidth 64
  refine ⟨addressedClient device addr, rfl, ?_⟩
  intro follows
  have inside : InRegion 0x10000 (registers 4) (registers 5) addr := by
    rw [InRegion, joinedWords_toNat]
  have matched : matchMemTarget (addressedClient device addr) = some 0 := by
    rw [matchMemTarget_uses uses, getAddr_addressedClient, if_pos]
    exact (mapsFrom.claims_iff addr).1.mpr inside
  exact disabled (follows.claims.mp ⟨0, matched⟩).1

/--
After a sequence of writes the device claims what its registers say exactly
if memory accesses are enabled at that point or never have been.
-/
theorem receiveAll_followsRegisters_iff
    (ident : BitVec 32)
    (writes : List RamWrite) :
    (∀ pci : SimbusPci RamDev RamHandle,
        pci.device = receiveAll writes (identifiedDevice ident) →
          FollowsRegisters pci) ↔
      enabledBy writes = true ∨ ¬EverEnabled writes := by
  have maps := mapsAfter_receiveAll ident writes
  constructor
  · intro follows
    by_contra neither
    rw [not_or, not_not] at neither
    obtain ⟨disabled, ever⟩ := neither
    rw [← maps.enabled] at disabled
    obtain ⟨registers, mapsFrom, _⟩ := maps.ever ever
    obtain ⟨pci, isDevice, fails⟩ :=
      not_followsRegisters maps.uses disabled mapsFrom
    exact fails (follows pci isDevice)
  · rintro (enabled | never) pci isDevice
    · rw [← maps.enabled] at enabled
      obtain ⟨registers, mapsFrom, current⟩ :=
        maps.ever ⟨writes, List.prefix_rfl, maps.enabled.mp enabled⟩
      rw [current enabled, ← isDevice] at mapsFrom
      rw [← isDevice] at enabled
      exact followsRegisters_of_enabled (isDevice ▸ maps.uses) enabled mapsFrom
    · obtain ⟨first, second⟩ := maps.never never
      have disabled : ¬MemoryEnabled pci.device.user := by
        rw [isDevice, maps.enabled]
        intro enabled
        exact never ⟨writes, List.prefix_rfl, enabled⟩
      rw [← isDevice] at first second
      exact followsRegisters_of_unused (isDevice ▸ maps.uses) disabled first
        second

/-- Memory accesses are enabled and disabled again. -/
theorem disabledRegion_claimed :
    ¬∀ pci : SimbusPci RamDev RamHandle,
      pci.device =
          receiveAll [.header 4 0x2 0x0, .header 4 0x0 0x0]
            (identifiedDevice deviceId) →
        FollowsRegisters pci := by
  intro follows
  have maps := mapsAfter_receiveAll deviceId
    [.header 4 0x2 0x0, .header 4 0x0 0x0]
  obtain ⟨registers, mapsFrom, _⟩ :=
    maps.ever ⟨[.header 4 0x2 0x0], ⟨[_], rfl⟩, by decide⟩
  have disabled := mt maps.enabled.mp (by decide)
  obtain ⟨pci, isDevice, fails⟩ :=
    not_followsRegisters maps.uses disabled mapsFrom
  exact fails (follows pci isDevice)

end Simbus.Pci
