import Simbus.Lxt2.Invariant
import Mathlib

/-!
# Values that are recorded in an LXT2 trace

Recording a value leaves the time positions and everything that has been written
alone.  What the changes of the symbols show stays the same before the present
position, and becomes the new value there.
-/

set_option autoImplicit false

namespace Simbus.Lxt2

open Numbering

namespace Trace

/-- The values of the symbols. -/
def valueAt (trace : Trace) (handle : Nat) : Option Text :=
  (trace.symbols[handle]?).map Symbol.value

/-- The changes of a symbol show some values before its present one. -/
def ShowsAt
    (trace : Trace)
    (handle : Nat)
    (old : Text)
    (front : List Text) : Prop :=
  ∃ symbol, trace.symbols[handle]? = some symbol ∧
    symbol.Shows trace.dict.items trace.timepos old front

/-- Only the dictionary, the changes and some flags have become other ones. -/
structure Keeps (trace trace' : Trace) : Prop where
  frame : trace' =
    { trace with
      dict := trace'.dict
      dictStringMemRequired := trace'.dictStringMemRequired
      symbols := trace'.symbols
      sortedFacs := trace'.sortedFacs
      header := trace'.header
      emitted := trace'.emitted
      bumptime := trace'.bumptime
      granuleDirty := trace'.granuleDirty }
  facilities : trace'.facilities = trace.facilities
  grows : trace.dict.items <+: trace'.dict.items
  bumped : trace.bumptime = true → trace'.bumptime = true
  dirty : trace.granuleDirty = true → trace'.granuleDirty = true
  emitted : trace.emitted = true → trace'.emitted = true
  shows_ : ∀ handle old front, trace.ShowsAt handle old front →
    trace'.ShowsAt handle old front

section

variable {trace trace' trace'' : Trace}

theorem Keeps.refl (trace : Trace) : trace.Keeps trace where
  frame := rfl
  facilities := rfl
  grows := List.prefix_rfl
  bumped := id
  dirty := id
  emitted := id
  shows_ := fun _ _ _ => id

theorem Keeps.trans
    (first : trace.Keeps trace')
    (second : trace'.Keeps trace'') :
    trace.Keeps trace'' where
  frame := by
    have isThird := second.frame
    rw [first.frame] at isThird
    exact isThird
  facilities := second.facilities.trans first.facilities
  grows := first.grows.trans second.grows
  bumped := second.bumped ∘ first.bumped
  dirty := second.dirty ∘ first.dirty
  emitted := second.emitted ∘ first.emitted
  shows_ := fun handle old front shown =>
    second.shows_ handle old front (first.shows_ handle old front shown)

theorem Keeps.timepos (keeps : trace.Keeps trace') :
    trace'.timepos = trace.timepos := by
  rw [keeps.frame]

theorem Keeps.timegranule (keeps : trace.Keeps trace') :
    trace'.timegranule = trace.timegranule := by
  rw [keeps.frame]

theorem Keeps.later (keeps : trace.Keeps trace') : trace'.later = trace.later := by
  rw [Trace.later, Trace.later, keeps.timepos, keeps.timegranule]

theorem Keeps.length (keeps : trace.Keeps trace') :
    trace'.symbols.length = trace.symbols.length := by
  have lengths := congrArg List.length keeps.facilities
  rwa [Trace.facilities, Trace.facilities, List.length_map, List.length_map]
    at lengths

/-- The facilities are written without a change of the values. -/
theorem ensureFacs_keeps (trace : Trace) :
    trace.Keeps
      { trace with
        emitted := true
        sortedFacs := some trace.order
        header := some trace.facHeader } where
  frame := rfl
  facilities := rfl
  grows := List.prefix_rfl
  bumped := id
  dirty := id
  emitted := fun _ => rfl
  shows_ := fun _ _ _ => id

/-- A value at a free position, or one read without the old value, is shown. -/
theorem Changed.keeps
    {handle : Nat}
    {symbol : Symbol}
    {value : Text}
    (changed : Changed handle symbol value trace trace')
    (holds : trace.Holds)
    (isSymbol : trace.symbols[handle]? = some symbol)
    (free : symbol.facility.kind = .bits → trace.later = true →
      symbol.msk.testBit trace.timepos = false) :
    trace.Keeps trace' ∧
      trace'.valueAt = Function.update trace.valueAt handle (some value) ∧
      trace'.bumptime = true := by
  have sameFacilities := changed.facilities_eq isSymbol
  have symbolHolds := holds.symbols symbol (List.mem_of_getElem? isSymbol)
  have inside := (List.getElem?_eq_some_iff.mp isSymbol).1
  have grows := changed.grows
  obtain ⟨encoding, symbol', mem, isTrace, isChange, isRead, _, absolute⟩ :=
    changed.change
  have isAbsolute : symbol.msk.testBit trace.timepos = true →
      encoding.Absolute := by
    intro isSet
    apply absolute
    cases isKind : symbol.facility.kind with
    | string =>
        exact .inl rfl
    | bits =>
        cases isLater : trace.later with
        | false =>
            exact .inr rfl
        | true =>
            rw [free isKind isLater] at isSet
            cases isSet
  generalize trace'.dict = dict at *
  subst isTrace
  refine ⟨⟨rfl, sameFacilities, grows, fun _ => rfl, fun _ => rfl, id, ?_⟩, ?_, rfl⟩
  · intro other old front shown
    obtain ⟨shownSymbol, isShown, shows_⟩ := shown
    by_cases same : other = handle
    · subst same
      rw [isSymbol] at isShown
      obtain rfl := Option.some.inj isShown
      exact ⟨_, List.getElem?_set_self inside,
        (shows_.mono grows).change symbolHolds isRead isAbsolute isChange⟩
    · exact ⟨shownSymbol, (List.getElem?_set_ne (Ne.symm same)).trans isShown,
        shows_.mono grows⟩
  · funext other
    by_cases same : other = handle
    · subst same
      rw [Function.update_self]
      exact congrArg (Option.map Symbol.value) (List.getElem?_set_self inside)
    · rw [Function.update_of_ne same]
      exact congrArg (Option.map Symbol.value)
        (List.getElem?_set_ne (Ne.symm same))

/-! ## Texts -/

/-- The texts that the dictionary gets if all values are recorded again. -/
def storedTexts (trace : Trace) : List Text :=
  trace.symbols.map fun symbol => symbol.facility.stored symbol.value

theorem storedTexts_congr
    (sameFacilities : trace'.facilities = trace.facilities)
    (sameValues : trace'.valueAt = trace.valueAt) :
    trace'.storedTexts = trace.storedTexts := by
  apply List.ext_getElem?
  intro handle
  have sameFacility := congrArg (·[handle]?) sameFacilities
  have sameValue := congrFun sameValues handle
  simp only [facilities, List.getElem?_map] at sameFacility
  rw [valueAt, valueAt] at sameValue
  rw [storedTexts, storedTexts, List.getElem?_map, List.getElem?_map]
  cases isSymbol : trace.symbols[handle]? with
  | none =>
      rw [isSymbol, Option.map_none] at sameValue
      rw [Option.map_eq_none_iff.mp sameValue]
  | some symbol =>
      rw [isSymbol, Option.map_some] at sameFacility sameValue
      obtain ⟨symbol', isSymbol', isFacility⟩ :=
        Option.map_eq_some_iff.mp sameFacility
      rw [isSymbol', Option.map_some] at sameValue
      rw [isSymbol', Option.map_some, Option.map_some, isFacility,
        Option.some.inj sameValue]

theorem mem_storedTexts
    {handle : Nat}
    {symbol : Symbol}
    (isSymbol : trace.symbols[handle]? = some symbol) :
    symbol.facility.stored symbol.value ∈ trace.storedTexts :=
  List.mem_map_of_mem (List.mem_of_getElem? isSymbol)

/-! ## Calls -/

/-- A symbol has been given a value, and nothing else has changed. -/
structure Sets
    (trace : Trace)
    (handle : Nat)
    (symbol : Symbol)
    (value : Text)
    (trace' : Trace) : Prop where
  holds : trace'.Holds
  keeps : trace.Keeps trace'
  values : trace'.valueAt = Function.update trace.valueAt handle (some value)
  bumps : trace'.valueAt = trace.valueAt ∨ trace'.bumptime = true
  stores : ∀ text ∈ trace'.dict.items,
    text ∈ trace.dict.items ∨ text = symbol.facility.stored value
  others : ∀ other, other ≠ handle →
    trace'.symbols[other]? = trace.symbols[other]?

/--
A call with a value of the kind of its symbol sets it, if the symbol has not been
set at the present position or has this value there.
-/
theorem record_sets
    (holds : trace.Holds)
    (isEmitted : trace.emitted = true)
    {handle : Nat}
    {symbol : Symbol}
    {value : Text}
    (isSymbol : trace.symbols[handle]? = some symbol)
    (isCString : IsCString value)
    (free : symbol.facility.kind = .bits → trace.later = true →
      symbol.msk.testBit trace.timepos = false ∨
        symbol.facility.normal value = symbol.value) :
    ∃ trace', record symbol.facility.kind handle value trace = some trace' ∧
      trace.Sets handle symbol (symbol.facility.normal value) trace' := by
  rcases record_spec holds isSymbol rfl with
    ⟨redundant, isSame⟩ | ⟨notRedundant, trace', isNext, changed⟩
  · have isValue : trace.valueAt handle =
        some (symbol.facility.normal value) := by
      rw [valueAt, isSymbol, redundant.1]
      rfl
    refine ⟨trace, isSame, holds, .refl trace, ?_, .inl rfl, fun _ => .inl,
      fun _ _ => rfl⟩
    rw [← isValue, Function.update_eq_self]
  · have holds' := changed.holds holds isSymbol (normal_isCString isCString _)
      (normal_normal _ _) isEmitted
    obtain ⟨keeps, values, bumped⟩ := changed.keeps holds isSymbol (by
      intro isBits isLater
      refine (free isBits isLater).resolve_right fun same => notRedundant ?_
      exact ⟨same, .inr isLater⟩)
    refine ⟨trace', isNext, holds', keeps, values, .inr bumped, changed.stores,
      ?_⟩
    intro other differ
    obtain ⟨_, _, _, isTrace, _⟩ := changed.change
    rw [isTrace]
    exact List.getElem?_set_ne differ.symm

/-- All symbols have kept their values. -/
structure Repeats (trace trace' : Trace) : Prop where
  holds : trace'.Holds
  keeps : trace.Keeps trace'
  values : trace'.valueAt = trace.valueAt
  stores : ∀ text ∈ trace'.dict.items,
    text ∈ trace.dict.items ∨ text ∈ trace.storedTexts

theorem Repeats.refl (holds : trace.Holds) : trace.Repeats trace where
  holds := holds
  keeps := .refl trace
  values := rfl
  stores := fun _ => .inl

theorem Repeats.trans
    (first : trace.Repeats trace')
    (second : trace'.Repeats trace'') :
    trace.Repeats trace'' where
  holds := second.holds
  keeps := first.keeps.trans second.keeps
  values := second.values.trans first.values
  stores := by
    intro text member
    rcases second.stores text member with isOld | isStored
    · exact first.stores text isOld
    · rw [storedTexts_congr first.keeps.facilities first.values] at isStored
      exact .inr isStored

/-- A symbol that is given its value again keeps it. -/
theorem burstOne_spec
    (holds : trace.Holds)
    (first : trace.later = false)
    {handle : Nat}
    (inside : handle < trace.symbols.length) :
    ∃ trace', trace.burstOne handle = some trace' ∧ trace.Repeats trace' := by
  obtain ⟨symbol, isSymbol⟩ : ∃ symbol, trace.symbols[handle]? = some symbol :=
    ⟨_, List.getElem?_eq_getElem inside⟩
  have symbolHolds := holds.symbols symbol (List.mem_of_getElem? isSymbol)
  have stays : ∃ trace', some trace = some trace' ∧ trace.Repeats trace' :=
    ⟨trace, rfl, .refl holds⟩
  have again : ∃ trace', (trace.ensureFacs.bind
      (record symbol.facility.kind handle symbol.value)) = some trace' ∧
      trace.Repeats trace' := by
    have someSymbols : trace.symbols ≠ [] :=
      List.ne_nil_of_mem (List.mem_of_getElem? isSymbol)
    have notLater : trace.later ≠ true := by
      rw [first]
      exact Bool.false_ne_true
    rw [ensureFacs_eq holds someSymbols, Option.bind_some]
    have written : trace.Repeats
        { trace with
          emitted := true
          sortedFacs := some trace.order
          header := some trace.facHeader } :=
      ⟨ensureFacs_holds holds someSymbols, ensureFacs_keeps trace, rfl,
        fun _ => .inl⟩
    generalize isBase : { trace with
      emitted := true
      sortedFacs := some trace.order
      header := some trace.facHeader } = base at *
    have isEmitted : base.emitted = true := by
      rw [← isBase]
    have isSymbol' : base.symbols[handle]? = some symbol := by
      rw [← isBase]
      exact isSymbol
    obtain ⟨trace', isNext, sets⟩ := record_sets written.holds isEmitted isSymbol'
      symbolHolds.isCString fun _ isLater =>
        absurd (written.keeps.later.symm.trans isLater) notLater
    have isValue : base.valueAt handle = some symbol.value := by
      rw [valueAt, isSymbol']
      rfl
    rw [symbolHolds.normal] at sets
    refine ⟨trace', isNext, written.trans ⟨sets.holds, sets.keeps, ?_, ?_⟩⟩
    · rw [sets.values, ← isValue, Function.update_eq_self]
    · intro text member
      rcases sets.stores text member with isOld | rfl
      · exact .inl isOld
      · exact .inr (mem_storedTexts isSymbol')
  rw [burstOne, isSymbol]
  simp only [Option.bind_eq_bind, Option.bind_some]
  split
  · cases isKind : symbol.facility.kind with
    | bits =>
        simp only
        rw [isKind] at again
        split
        · exact stays
        · exact again
    | string =>
        rw [isKind] at again
        exact again
  · exact stays

/-- At the start of a section all symbols keep their values. -/
theorem initialBurst_spec
    (holds : trace.Holds)
    (first : trace.later = false) :
    ∃ trace', trace.initialBurst = some trace' ∧ trace.Repeats trace' := by
  have burst (handles : List Nat) :
      ∀ trace : Trace, trace.Holds → trace.later = false →
        (∀ handle ∈ handles, handle < trace.symbols.length) →
        ∃ trace', handles.foldlM burstOne trace = some trace' ∧
          trace.Repeats trace' := by
    induction handles with
    | nil =>
        intro trace holds _ _
        exact ⟨trace, rfl, .refl holds⟩
    | cons handle handles inductionHypothesis =>
        intro trace holds first inside
        rw [List.forall_mem_cons] at inside
        obtain ⟨middle, isMiddle, repeats⟩ := burstOne_spec holds first inside.1
        obtain ⟨trace', isLast, repeats'⟩ :=
          inductionHypothesis middle repeats.holds (repeats.keeps.later.trans first)
            fun other member => repeats.keeps.length ▸ inside.2 other member
        refine ⟨trace', ?_, repeats.trans repeats'⟩
        rw [List.foldlM_cons, isMiddle]
        exact isLast
  exact burst _ trace holds first fun handle member =>
    List.mem_range.mp (List.mem_reverse.mp member)

end

end Trace

end Simbus.Lxt2
