import Simbus.Vpi.Memory

/-!
# The bounds of the memory and of its registers

When a call leaves the memory or the control registers.  Each command has its
own checks; what they miss is told by the arguments of the command.
-/

namespace Simbus.Vpi.Memory

open CheckedArray

namespace MemoryMap

variable (host : Host)
variable (map : MemoryMap)

/-! ## The commands -/

theorem fillWords_isSome
    {size : Nat}
    (base : Vector Byte size)
    (first : Nat)
    (fill : BitVec 32)
    (count : Nat) :
    (fillWords base first fill count).isSome ↔
      Inside size first (4 * count) := by
  induction count generalizing base first with
  | zero =>
      simp [fillWords, Inside]
  | succ count inductionHypothesis =>
      have stored := putBlock?_isSome base first (wordBytes fill)
      rw [wordBytes_length] at stored
      cases stores : putBlock? base first (wordBytes fill) with
      | none =>
          rw [stores] at stored
          simp only [fillWords, stores, Option.bind_eq_bind, Option.bind_none]
          simp only [Option.isSome_none, Bool.false_eq_true, false_iff] at stored ⊢
          unfold Inside at *
          omega
      | some after =>
          simp only [stores, Option.isSome_some, true_iff] at stored
          simp only [fillWords, stores, Option.bind_eq_bind, Option.bind_some,
            inductionHypothesis]
          unfold Inside at *
          omega

/-- A FILL is refused, clipped, or asks for words of the memory. -/
def FillFits : Prop :=
  map.size ≤ (map.argument 1).toNat ∨ map.argument 2 = 0 ∨
    map.size < (map.argument 1 + map.argument 2 * 4).toNat ∨
    (map.argument 1).toNat + 4 * (map.argument 2).toNat ≤ map.size

theorem cmdFill_isSome :
    map.cmdFill.isSome ↔ map.FillFits := by
  simp only [cmdFill, FillFits, fillCount]
  split_ifs with outside noWords clips
  · simp [outside]
  · simp [noWords]
  · rw [Option.isSome_map, fillWords_isSome]
    simp only [clips, true_or, or_true, iff_true]
    exact inside_of_le (by omega)
  · have someWords : (map.argument 2).toNat ≠ 0 := fun isZero =>
      noWords (BitVec.eq_of_toNat_eq isZero)
    rw [Option.isSome_map, fillWords_isSome]
    simp only [outside, noWords, clips, false_or]
    unfold Inside
    omega

/-- A COMPARE is refused, or both regions of the clipped length are inside. -/
def CompareFits : Prop :=
  let count := map.compareCount (map.argument 1) (map.argument 2)
  map.size ≤ (map.argument 1).toNat ∨ map.size ≤ (map.argument 3).toNat ∨
    map.argument 2 = 0 ∨
    ((map.argument 1).toNat + count ≤ map.size ∧
      (map.argument 3).toNat + count ≤ map.size)

theorem cmdCompare_isSome :
    map.cmdCompare.isSome ↔ map.CompareFits := by
  simp only [cmdCompare, CompareFits]
  split_ifs with outside1 outside2 noBytes
  · simp [outside1]
  · simp [outside2]
  · simp [noBytes]
  · have someBytes : (map.argument 2).toNat ≠ 0 := fun isZero =>
      noBytes (BitVec.eq_of_toNat_eq isZero)
    have someCount : map.compareCount (map.argument 1) (map.argument 2) ≠ 0 := by
      unfold compareCount
      split <;> omega
    simp only [outside1, outside2, noBytes, false_or]
    rw [← inside_iff_le someCount, ← inside_iff_le someCount,
      ← block?_isSome map.base, ← block?_isSome map.base]
    cases block? map.base (map.argument 1).toNat
        (map.compareCount (map.argument 1) (map.argument 2)) with
    | none =>
        simp
    | some first =>
        cases block? map.base (map.argument 3).toNat
            (map.compareCount (map.argument 1) (map.argument 2)) with
        | none =>
            simp
        | some second =>
            simp

/-- A LOAD finds no file, or what it takes of the file fits. -/
def LoadFits : Prop :=
  ∀ contents, host.readFile (map.openedPath host) = some contents →
    Inside map.size (map.argument 1).toNat
      (min (map.argument 2).toNat contents.length)

theorem cmdLoad_isSome :
    (map.cmdLoad host).isSome ↔ map.LoadFits host := by
  unfold cmdLoad LoadFits
  cases host.readFile (map.openedPath host) with
  | none =>
      simp
  | some contents =>
      simp [putBlock?_isSome]

/-- A SAVE opens no file, is refused, or its region is inside. -/
def SaveFits : Prop :=
  host.writeFile (map.openedPath host) = none ∨
    map.size < (map.argument 1 + map.argument 2).toNat ∨
    Inside map.size (map.argument 1).toNat (map.argument 2).toNat

theorem cmdSave_isSome :
    (map.cmdSave host).isSome ↔ map.SaveFits host := by
  unfold cmdSave SaveFits
  cases host.writeFile (map.openedPath host) with
  | none =>
      simp
  | some write =>
      simp only [reduceCtorEq, false_or]
      split_ifs with past
      · simp only [past, Option.isSome_some, true_or]
      · simp only [past, Option.isSome_map, block?_isSome, false_or]

/-- The command in the first register stays inside. -/
def CommandFits : Prop :=
  ((map.argument 0).toNat = 0 → map.FillFits) ∧
    ((map.argument 0).toNat = 1 → map.CompareFits) ∧
    ((map.argument 0).toNat = 2 → map.LoadFits host) ∧
    ((map.argument 0).toNat = 3 → map.SaveFits host)

theorem memdevCommand_isSome :
    (map.memdevCommand host).isSome ↔ map.CommandFits host := by
  unfold memdevCommand CommandFits
  split <;> rename_i isCommand
  · simp [isCommand, cmdFill_isSome]
  · simp [isCommand, cmdCompare_isSome]
  · simp [isCommand, cmdLoad_isSome]
  · simp [isCommand, cmdSave_isSome]
  · rename_i notFill notCompare notLoad
    exact iff_of_true rfl
      ⟨fun isFill => (notFill isFill).elim,
        fun isCompare => (notCompare isCompare).elim,
        fun isLoad => (notLoad isLoad).elim,
        fun isSave => (isCommand isSave).elim⟩

end MemoryMap

/-! ## The calls -/

/-- A call stays inside of the memory and of the registers. -/
def CallFits
    (host : Host)
    (map : MemoryMap) : Call → Prop
  | .peek value bar =>
      (bar.toNat = 0 → map.address value + 3 < map.size) ∧
        (bar.toNat = 1 → map.address value / 4 < controlCount)
  | .poke value word bar =>
      (bar.toNat = 0 → map.address value + 3 < map.size) ∧
        (bar.toNat = 1 → map.address value / 4 < controlCount ∧
          (map.address value = 0 → (map.setRegister 0 word).CommandFits host))

theorem memoryPeek_isSome
    (host : Host)
    (map : MemoryMap)
    (value bar : BitVec 32) :
    (map.memoryPeek value bar).isSome ↔ CallFits host map (.peek value bar) := by
  unfold MemoryMap.memoryPeek CallFits
  split <;> rename_i isBar
  · rw [Option.isSome_map, block?_isSome, inside_iff_le (by decide)]
    simp only [isBar, true_implies]
    omega
  · simp [isBar]
  · rename_i notZero
    exact iff_of_true rfl
      ⟨fun isZero => (notZero isZero).elim, fun isOne => (isBar isOne).elim⟩

theorem memoryPoke_isSome
    (host : Host)
    (map : MemoryMap)
    (value word bar : BitVec 32) :
    (map.memoryPoke host value word bar).isSome ↔
      CallFits host map (.poke value word bar) := by
  unfold MemoryMap.memoryPoke CallFits
  split <;> rename_i isBar
  · rw [Option.isSome_map, putBlock?_isSome, wordBytes_length,
      inside_iff_le (by decide)]
    simp only [isBar, true_implies]
    omega
  · simp only [isBar, true_implies]
    by_cases bounded : map.address value / 4 < controlCount
    · rw [dif_pos bounded]
      by_cases first : map.address value = 0
      · have atStart : (⟨map.address value / 4, bounded⟩ : Fin controlCount) = 0 :=
          Fin.ext (by simp [first])
        rw [if_pos first, atStart, MemoryMap.memdevCommand_isSome]
        simp [first, show 0 < controlCount by decide]
      · simp [first, bounded]
    · simp [bounded]
  · rename_i notZero
    exact iff_of_true rfl
      ⟨fun isZero => (notZero isZero).elim, fun isOne => (isBar isOne).elim⟩

theorem step_isSome
    (host : Host)
    (map : MemoryMap)
    (call : Call) :
    (call.step host map).isSome ↔ CallFits host map call := by
  cases call with
  | peek value bar =>
      rw [Call.step, Option.isSome_map, memoryPeek_isSome host]
  | poke value word bar =>
      exact memoryPoke_isSome host map value word bar

/-- Every call of a sequence stays inside in the state that it finds. -/
def RunFits : List (Host × Call) → MemoryMap → Prop
  | [], _ => True
  | (host, call) :: rest, map =>
      CallFits host map call ∧
        ∀ after, call.step host map = some after → RunFits rest after

/-- A sequence of calls stays inside exactly when each of its calls does. -/
theorem run_isSome_iff
    (calls : List (Host × Call))
    (map : MemoryMap) :
    (run calls map).isSome ↔ RunFits calls map := by
  induction calls generalizing map with
  | nil =>
      simp [run, RunFits]
  | cons call rest inductionHypothesis =>
      obtain ⟨host, call⟩ := call
      rw [run, RunFits, ← step_isSome]
      cases steps : call.step host map with
      | none =>
          simp
      | some after =>
          simp [inductionHypothesis]

/-- A word past the control registers of a memory of 64K, BAR 1. -/
def pokePastRegisters : Call :=
  .poke 4096 0 1

/-- The register index is reduced by the size of the memory only. -/
theorem pokePastRegisters_leaves :
    ¬ ∀ (size : BitVec 32) (contents : Nat → Byte) (map : MemoryMap)
      (calls : List (Host × Call)),
      memoryOpen size contents = some map → (run calls map).isSome := by
  intro claimed
  have opened :
      ∃ map, memoryOpen 65536 (fun _ => 0) = some map ∧ map.size = 65536 := by
    rw [memoryOpen, dif_pos (by decide)]
    exact ⟨_, rfl, rfl⟩
  obtain ⟨map, opens, isSize⟩ := opened
  have inside := claimed _ _ map [(noFiles, pokePastRegisters)] opens
  have isAddress : map.address 4096 = 4096 := by
    rw [MemoryMap.address, isSize]
    rfl
  have fits : CallFits noFiles map pokePastRegisters := by
    rw [← step_isSome]
    cases steps : pokePastRegisters.step noFiles map with
    | none =>
        simp [run, steps] at inside
    | some after =>
        rfl
  have index := (fits.2 rfl).1
  rw [isAddress] at index
  exact absurd index (by decide)

end Simbus.Vpi.Memory
