import Simbus.Lxt2.Symbols
import Mathlib

/-!
# What holds of the LXT2 writer between its calls

The invariant covers the tables, the time positions and every symbol.  A value
either changes nothing or puts one change into its symbol, from which a reader of
the dictionary gets the value.
-/

set_option autoImplicit false

namespace Simbus.Lxt2

open ByteFormat Numbering Splay

/-- Some items in the order of their places. -/
def arrange {α : Type} (items : List α) (handles : List Nat) : List α :=
  handles.filterMap (items[·]?)

/-- Places that are all there are looked up one after another. -/
theorem mapM_getElem?
    {α β : Type}
    {items : List α}
    {handles : List Nat}
    (inside : ∀ handle ∈ handles, handle < items.length)
    (f : α → β) :
    (handles.mapM fun handle => (items[handle]?).map f) =
      some ((arrange items handles).map f) := by
  induction handles with
  | nil =>
      rfl
  | cons handle handles inductionHypothesis =>
      rw [List.forall_mem_cons] at inside
      rw [List.mapM_cons, inductionHypothesis inside.2, arrange, arrange,
        List.filterMap_cons, List.getElem?_eq_getElem inside.1]
      rfl

theorem getElem?_arrange
    {α : Type}
    {items : List α}
    {handles : List Nat}
    (inside : ∀ handle ∈ handles, handle < items.length)
    (place : Nat) :
    (arrange items handles)[place]? = handles[place]?.bind (items[·]?) := by
  induction handles generalizing place with
  | nil =>
      rfl
  | cons handle handles inductionHypothesis =>
      rw [List.forall_mem_cons] at inside
      rw [arrange, List.filterMap_cons, List.getElem?_eq_getElem inside.1]
      cases place with
      | zero =>
          exact (List.getElem?_eq_getElem inside.1).symm
      | succ place =>
          exact inductionHypothesis inside.2 place

theorem length_arrange
    {α : Type}
    {items : List α}
    {handles : List Nat}
    (inside : ∀ handle ∈ handles, handle < items.length) :
    (arrange items handles).length = handles.length := by
  induction handles with
  | nil =>
      rfl
  | cons handle handles inductionHypothesis =>
      rw [List.forall_mem_cons] at inside
      rw [arrange, List.filterMap_cons, List.getElem?_eq_getElem inside.1]
      exact congrArg (· + 1) (inductionHypothesis inside.2)

namespace Trace

/-- The shapes of the symbols, in the order of their addition. -/
def facilities (trace : Trace) : List Facility :=
  trace.symbols.map Symbol.facility

/-- The order in which the symbols are written. -/
def order (trace : Trace) : List Nat :=
  (List.range trace.names.length).mergeSort (nameLe trace.names)

/-- The shapes of the symbols in the order of their names. -/
def sortedFacilities (trace : Trace) : List Facility :=
  arrange trace.facilities trace.order

/-- What is written of the facilities. -/
def facHeader (trace : Trace) : FacHeader where
  numfacs := trace.symbols.length
  numfacbytes := trace.numfacbytes
  longestname := trace.longestname
  zfacnamePredecSize :=
    (facnamesBytes none (trace.sortedFacilities.map Facility.name)).length
  facnames := facnamesBytes none (trace.sortedFacilities.map Facility.name)
  geometry := trace.sortedFacilities.flatMap geometryBytes

/-- Values are compared with the ones before, except at the start of a section. -/
def later (trace : Trace) : Bool :=
  trace.timepos ≠ 0 || trace.timegranule ≠ 0

/-- No value has been recorded yet, and no granule. -/
structure Fresh (trace : Trace) : Prop where
  unsorted : trace.sortedFacs = none
  noHeader : trace.header = none
  first : trace.later = false
  still : trace.bumptime = false
  unflushed : trace.flushValid = false
  noStrings : trace.dict.items = []
  noSections : trace.sections = []
  added : ∀ symbol ∈ trace.symbols, symbol = .added symbol.facility

/-- What holds between two calls. -/
structure Holds (trace : Trace) : Prop where
  table : trace.sym.Holds trace.names
  distinct : trace.names.Nodup
  namesText : ∀ name ∈ trace.names, IsCString name
  position : trace.timepos < granuleSize
  granule : trace.timegranule < trace.maxgranule
  symbols : ∀ symbol ∈ trace.symbols,
    symbol.Holds trace.timepos trace.dict.count
  texts : ∀ text ∈ trace.dict.items, IsCString text
  masks : ∀ msk ∈ trace.mapdict.items, msk < 2 ^ granuleSize
  room : trace.zhandle.HasRoom
  written : trace.emitted = true → trace.symbols ≠ [] ∧
    trace.sortedFacs = some trace.order ∧ trace.header = some trace.facHeader
  fresh : trace.emitted = false → trace.Fresh
  flushed : trace.flushValid = true → trace.later = false
  free : trace.bumptime = false → trace.later = true →
    ∀ symbol ∈ trace.symbols, symbol.msk.testBit trace.timepos = false

theorem init_holds : Trace.init.Holds where
  table := holds_empty
  distinct := List.nodup_nil
  namesText := fun _ member => absurd member List.not_mem_nil
  position := by decide
  granule := by decide
  symbols := fun _ member => absurd member List.not_mem_nil
  texts := fun _ member => absurd member List.not_mem_nil
  masks := fun _ member => absurd member List.not_mem_nil
  room := GzStream.opened_hasRoom
  written := fun emitted => absurd emitted Bool.false_ne_true
  fresh := fun _ =>
    { unsorted := rfl
      noHeader := rfl
      first := rfl
      still := rfl
      unflushed := rfl
      noStrings := rfl
      noSections := rfl
      added := fun _ member => absurd member List.not_mem_nil }
  flushed := fun flushed => absurd flushed Bool.false_ne_true
  free := fun _ later => absurd later Bool.false_ne_true

section

variable {trace trace' : Trace}

theorem later_eq_false_iff :
    trace.later = false ↔ trace.timepos = 0 ∧ trace.timegranule = 0 := by
  rw [later, Bool.or_eq_false_iff, decide_eq_false_iff_not,
    decide_eq_false_iff_not, not_not, not_not]

theorem length_names : trace.names.length = trace.symbols.length :=
  List.length_map _

theorem order_perm : trace.order.Perm (List.range trace.symbols.length) := by
  rw [order, length_names]
  exact List.mergeSort_perm _ _

theorem order_inside
    {handle : Nat}
    (member : handle ∈ trace.order) :
    handle < trace.symbols.length :=
  List.mem_range.mp (order_perm.mem_iff.mp member)

/-! ## Additions -/

theorem facilityOf_name
    (name : Text)
    (rows msb lsb : BitVec 32)
    (kind : Kind) :
    (facilityOf name rows msb lsb kind).name = name := by
  cases kind <;> rfl

/--
A symbol is added unless a value has been recorded or the name is taken; then its
length must not overflow.
-/
theorem symbolAdd_cases
    (holds : trace.Holds)
    (name : Text)
    (rows msb lsb : BitVec 32)
    (kind : Kind) :
    trace.symbolAdd name rows msb lsb kind = some (none, trace) ∧
        (trace.emitted = true ∨ name ∈ trace.names) ∨
      (trace.emitted = false ∧ name ∉ trace.names) ∧
        trace.symbolAdd name rows msb lsb kind =
          if (facilityOf name rows msb lsb kind).InRange then
            some
              (some trace.symbols.length,
                { trace with
                  sym := trace.sym.add name trace.symbols.length
                  symbols := trace.symbols ++
                    [.added (facilityOf name rows msb lsb kind)]
                  longestname := max trace.longestname name.length
                  numfacbytes := trace.numfacbytes + (name.length + 1) })
          else
            none := by
  rw [symbolAdd]
  cases isEmitted : trace.emitted with
  | true =>
      rw [(holds.written isEmitted).2.1]
      exact .inl ⟨rfl, .inl rfl⟩
  | false =>
      rw [(holds.fresh isEmitted).unsorted]
      cases found : symfind trace.sym trace.names name with
      | none =>
          have isNew := (symfind_eq_none_iff holds.table name).mp found
          exact .inr ⟨⟨rfl, isNew⟩, rfl⟩
      | some handle =>
          have isOld := List.mem_of_getElem? (symfind_eq_some found)
          exact .inl ⟨rfl, .inr isOld⟩

/-- An addition fails only for a new symbol whose length overflows. -/
theorem symbolAdd_eq_none_iff
    (holds : trace.Holds)
    (name : Text)
    (rows msb lsb : BitVec 32)
    (kind : Kind) :
    trace.symbolAdd name rows msb lsb kind = none ↔
      trace.emitted = false ∧ name ∉ trace.names ∧
        ¬ (facilityOf name rows msb lsb kind).InRange := by
  rcases symbolAdd_cases holds name rows msb lsb kind with
    ⟨same, isEmitted | isKnown⟩ | ⟨⟨isEmitted, isNew⟩, outcome⟩
  · simp [same, isEmitted]
  · simp [same, isKnown]
  · simp [outcome, isEmitted, isNew]

theorem symbolAdd_total
    (holds : trace.Holds)
    (name : Text)
    {rows msb lsb : BitVec 32}
    {kind : Kind}
    (inRange : (facilityOf name rows msb lsb kind).InRange) :
    ∃ handle trace',
      trace.symbolAdd name rows msb lsb kind = some (handle, trace') := by
  cases isAdded : trace.symbolAdd name rows msb lsb kind with
  | none =>
      have overflows := (symbolAdd_eq_none_iff holds _ _ _ _ _).mp isAdded
      exact absurd inRange overflows.2.2
  | some added =>
      exact ⟨added.1, added.2, rfl⟩

/-- What an addition can do to the trace. -/
theorem symbolAdd_added
    (holds : trace.Holds)
    {name : Text}
    {rows msb lsb : BitVec 32}
    {kind : Kind}
    {handle : Option Nat}
    (isAdded : trace.symbolAdd name rows msb lsb kind = some (handle, trace')) :
    handle = none ∧ trace' = trace ∧
        (trace.emitted = true ∨ name ∈ trace.names) ∨
      trace.emitted = false ∧ name ∉ trace.names ∧
        handle = some trace.symbols.length ∧
        trace' =
          { trace with
            sym := trace.sym.add name trace.symbols.length
            symbols := trace.symbols ++
              [.added (facilityOf name rows msb lsb kind)]
            longestname := max trace.longestname name.length
            numfacbytes := trace.numfacbytes + (name.length + 1) } := by
  rcases symbolAdd_cases holds name rows msb lsb kind with
    ⟨same, why⟩ | ⟨⟨isEmitted, isNew⟩, outcome⟩
  · obtain ⟨rfl, rfl⟩ := Prod.mk.inj (Option.some.inj (same.symm.trans isAdded))
    exact .inl ⟨rfl, rfl, why⟩
  · rw [isAdded] at outcome
    split at outcome
    · obtain ⟨rfl, rfl⟩ := Prod.mk.inj (Option.some.inj outcome)
      exact .inr ⟨isEmitted, isNew, rfl, rfl⟩
    · cases outcome

theorem symbolAdd_holds
    (holds : trace.Holds)
    {name : Text}
    (isCString : IsCString name)
    {rows msb lsb : BitVec 32}
    {kind : Kind}
    {handle : Option Nat}
    (isAdded : trace.symbolAdd name rows msb lsb kind = some (handle, trace')) :
    trace'.Holds := by
  rcases symbolAdd_added holds isAdded with
    ⟨_, rfl, _⟩ | ⟨isEmitted, isNew, _, rfl⟩
  · exact holds
  · have fresh := holds.fresh isEmitted
    have isFirst := (later_eq_false_iff.mp fresh.first).1
    have newNames : (trace.symbols ++
        [Symbol.added (facilityOf name rows msb lsb kind)]).map
          (·.facility.name) = trace.names ++ [name] := by
      rw [List.map_append]
      exact congrArg (trace.names ++ [·]) (facilityOf_name _ _ _ _ _)
    exact
      { table := by
          change SymTable.Holds _ (List.map _ _)
          rw [newNames, ← length_names]
          exact holds.table.add name
        distinct := by
          change (List.map _ _).Nodup
          rw [newNames]
          exact List.nodup_append.mpr ⟨holds.distinct, List.nodup_singleton _,
            fun old isOld new isName same =>
              isNew (List.mem_singleton.mp isName ▸ same ▸ isOld)⟩
        namesText := by
          change ∀ other ∈ List.map _ _, _
          rw [newNames]
          intro other member
          rcases List.mem_append.mp member with isOld | isName
          · exact holds.namesText other isOld
          · rwa [List.mem_singleton.mp isName]
        position := holds.position
        granule := holds.granule
        symbols := by
          intro symbol member
          rcases List.mem_append.mp member with isOld | isAdded
          · exact holds.symbols symbol isOld
          · rw [List.mem_singleton.mp isAdded]
            change Symbol.Holds trace.timepos _ _
            rw [isFirst]
            exact Symbol.added_holds _ _
        texts := holds.texts
        masks := holds.masks
        room := holds.room
        written := fun emitted => absurd (isEmitted.symm.trans emitted)
          Bool.false_ne_true
        fresh := fun _ =>
          { fresh with
            added := by
              intro symbol member
              rcases List.mem_append.mp member with isOld | isAdded
              · exact fresh.added symbol isOld
              · rw [List.mem_singleton.mp isAdded]
                rfl }
        flushed := holds.flushed
        free := fun _ later => absurd (fresh.first.symm.trans later)
          Bool.false_ne_true }

/-- What is found under a name, before and behind the writing of the facilities. -/
theorem symbolFind_eq
    (holds : trace.Holds)
    (name : Text) :
    trace.symbolFind name =
      if trace.emitted = true ∧ ∃ other ∈ trace.names, hash other = hash name then
        none
      else
        some (trace.names.idxOf? name) := by
  have inChain : trace.sym (hash name) = [] ↔
      ¬ ∃ other ∈ trace.names, hash other = hash name := by
    rw [List.eq_nil_iff_forall_not_mem, not_exists]
    constructor
    · intro isEmpty other known
      obtain ⟨handle, isName⟩ := List.mem_iff_getElem?.mp known.1
      exact isEmpty handle
        ((holds.table (hash name) handle).mpr ⟨other, isName, known.2⟩)
    · intro noOther handle member
      obtain ⟨other, isName, same⟩ := (holds.table (hash name) handle).mp member
      exact noOther other ⟨List.mem_of_getElem? isName, same⟩
  rw [symbolFind]
  cases isEmitted : trace.emitted with
  | true =>
      rw [(holds.written isEmitted).2.1, Option.isSome_some, if_pos rfl]
      by_cases shares : ∃ other ∈ trace.names, hash other = hash name
      · rw [if_neg (inChain.not.mpr (not_not.mpr shares)), if_pos ⟨rfl, shares⟩]
      · have notKnown : name ∉ trace.names := fun known =>
          shares ⟨name, known, rfl⟩
        rw [if_pos (inChain.mpr shares), if_neg fun both => shares both.2,
          List.idxOf?_eq_none_iff.mpr notKnown]
  | false =>
      have isFresh : trace.sortedFacs.isSome = false := by
        rw [(holds.fresh isEmitted).unsorted]
        rfl
      rw [isFresh, if_neg Bool.false_ne_true, if_neg fun both =>
        Bool.false_ne_true both.1, symfind_eq_idxOf? holds.table holds.distinct]

/-! ## Facilities -/

theorem arrange_map
    {α β : Type}
    (f : α → β)
    (items : List α)
    (handles : List Nat) :
    arrange (items.map f) handles = (arrange items handles).map f := by
  rw [arrange, arrange, List.map_filterMap]
  congr 1
  funext handle
  rw [List.getElem?_map]

/-- The first value writes the facilities in the order of their names. -/
theorem ensureFacs_eq
    (holds : trace.Holds)
    (someSymbols : trace.symbols ≠ []) :
    trace.ensureFacs =
      some { trace with
        emitted := true
        sortedFacs := some trace.order
        header := some trace.facHeader } := by
  rw [ensureFacs]
  split
  · rename_i isEmitted
    obtain ⟨_, isSorted, isHeader⟩ := holds.written isEmitted
    rw [← isSorted, ← isHeader, ← isEmitted]
  · have someNames : trace.names ≠ [] := fun none =>
      someSymbols (List.map_eq_nil_iff.mp none)
    have someLength : ¬ trace.symbols.length = 0 := fun none =>
      someSymbols (List.eq_nil_of_length_eq_zero none)
    have facs : (trace.order.mapM fun handle =>
        (trace.symbols[handle]?).map Symbol.facility) =
          some trace.sortedFacilities := by
      rw [mapM_getElem? (fun _ => order_inside), sortedFacilities, facilities,
        arrange_map]
    obtain ⟨facnames, isFacnames, _, names⟩ := emitFacnames_emits none
      (trace.sortedFacilities.map Facility.name) .opened
      GzStream.opened_hasRoom
    have emitsShapes : GzStream.Emits
        (GzStream.emitEach emitGeometry trace.sortedFacilities)
        (trace.sortedFacilities.flatMap geometryBytes) :=
      GzStream.emitEach_emits fun facility _ => emitGeometry_emits facility
    obtain ⟨geometry, isGeometry, _, shapes⟩ :=
      emitsShapes .opened GzStream.opened_hasRoom
    rw [emitfacs, if_neg someLength, waveMsort_eq someNames]
    simp only [Option.bind_eq_bind, Option.bind_some]
    rw [← order, facs]
    simp only [Option.bind_some, isFacnames, isGeometry, Option.map_some,
      GzStream.contents_flushBuffered, names, shapes]
    rfl

theorem ensureFacs_holds
    (holds : trace.Holds)
    (someSymbols : trace.symbols ≠ []) :
    Holds
      { trace with
        emitted := true
        sortedFacs := some trace.order
        header := some trace.facHeader } :=
  { table := holds.table
    distinct := holds.distinct
    namesText := holds.namesText
    position := holds.position
    granule := holds.granule
    symbols := holds.symbols
    texts := holds.texts
    masks := holds.masks
    room := holds.room
    written := fun _ => ⟨someSymbols, rfl, rfl⟩
    fresh := fun emitted => absurd emitted.symm Bool.false_ne_true
    flushed := holds.flushed
    free := holds.free }

/-! ## Values -/

/-- A text of the dictionary is read by its number. -/
theorem dictEncoding_spec (trace : Trace) (text : Text) :
    ∃ dict mem number,
      trace.dictEncoding text =
        some ({ trace with dict := dict, dictStringMemRequired := mem },
          .dict number) ∧
      trace.dict.items <+: dict.items ∧
      dict.count ≤ trace.dict.count + 1 ∧
      dict.items[number]? = some text ∧
      ∀ other ∈ dict.items, other ∈ trace.dict.items ∨ other = text := by
  have isKnown : reaches text trace.dict.tree = true ↔ text ∈ trace.dict.items :=
    reaches_iff_mem trace.dict
  obtain ⟨number, isNumber, isText, grows, others⟩ := use_spec trace.dict isKnown
  have isEncoding : trace.dictEncoding text =
      some
        ({ trace with
            dict := (trace.dict.use text _ isKnown).1
            dictStringMemRequired := trace.dictStringMemRequired +
              if reaches text trace.dict.tree then 0 else text.length + 1 },
          .dict number) := by
    rw [dictEncoding]
    simp only [isNumber, Option.bind_eq_bind, Option.bind_some]
  exact ⟨_, _, number, isEncoding, grows, count_use_le _ _, isText,
    fun other member => (others other member).symm⟩

/--
A symbol has got a value by one change, which is read with the strings that there
are then.  It looks at the old value only for bits, and not at the start of a
section.
-/
structure Changed
    (handle : Nat)
    (symbol : Symbol)
    (value : Text)
    (trace trace' : Trace) : Prop where
  grows : trace.dict.items <+: trace'.dict.items
  atMost : trace'.dict.count ≤ trace.dict.count + 1
  stores : ∀ text ∈ trace'.dict.items,
    text ∈ trace.dict.items ∨ text = symbol.facility.stored value
  change : ∃ encoding symbol' mem,
    trace' =
      { trace with
        dict := trace'.dict
        dictStringMemRequired := mem
        symbols := trace.symbols.set handle { symbol' with value := value }
        bumptime := true
        granuleDirty := true } ∧
    symbol.change trace.timepos encoding = some symbol' ∧
    symbol.facility.read trace'.dict.items encoding symbol.value = some value ∧
    encoding.code < trace'.dict.count + dictStart ∧
    (symbol.facility.kind = .string ∨ trace.later = false → encoding.Absolute)

/-- The value is the one that the symbol has, and need not be recorded. -/
def Redundant (symbol : Symbol) (value : Text) (trace : Trace) : Prop :=
  symbol.facility.normal value = symbol.value ∧
    (symbol.facility.kind = .string ∨ trace.later = true)

theorem recordBits_spec
    (holds : trace.Holds)
    {handle : Nat}
    {symbol : Symbol}
    {value : Text}
    (isSymbol : trace.symbols[handle]? = some symbol)
    (isBits : symbol.facility.kind = .bits) :
    Redundant symbol value trace ∧ trace.recordBits handle value = some trace ∨
      ¬ Redundant symbol value trace ∧
        ∃ trace', trace.recordBits handle value = some trace' ∧
          Changed handle symbol (symbol.facility.normal value) trace trace' := by
  have symbolHolds := holds.symbols symbol (List.mem_of_getElem? isSymbol)
  have isNormal : symbol.facility.normal value =
      normalize symbol.facility.len value := by
    rw [Facility.normal, isBits]
  have lengths : symbol.value.length =
      (normalize symbol.facility.len value).length := by
    have normal := symbolHolds.normal
    rw [Facility.normal, isBits] at normal
    rw [← normal, length_normalize, length_normalize]
  have isLength : (normalize symbol.facility.len value).length =
      symbol.facility.len :=
    length_normalize _ _
  have lower := normalize_lowerCase symbol.facility.len value
  rw [isNormal]
  rw [recordBits, isSymbol]
  simp only [Option.bind_eq_bind, Option.bind_some]
  rw [← later]
  generalize normalize symbol.facility.len value = new at *
  split
  · rename_i redundant
    rw [Bool.and_eq_true, decide_eq_true_eq] at redundant
    exact .inl ⟨⟨isNormal.trans redundant.2, .inr redundant.1⟩, rfl⟩
  · rename_i notRedundant
    right
    refine ⟨fun redundant => notRedundant ?_, ?_⟩
    · rw [Bool.and_eq_true, decide_eq_true_eq, ← redundant.1, isNormal]
      refine ⟨redundant.2.resolve_left fun isString => ?_, rfl⟩
      rw [isBits] at isString
      cases isString
    simp only [isBits]
    have reads (strings : List Text) (encoding : Encoding) (old : Text) :
        symbol.facility.read strings encoding old =
          encoding.apply strings new.length old := by
      rw [read_bits isBits, isLength]
    cases chosen : shortEncoding trace.later symbol.value new with
    | some encoding =>
        obtain ⟨applied, absolute⟩ :
            encoding.apply trace.dict.items new.length symbol.value = some new ∧
              (trace.later = false → encoding.Absolute) :=
          apply_shortEncoding lengths lower chosen
        have known : encoding.code < trace.dict.count + dictStart :=
          Nat.lt_add_left _ (shortEncoding_code chosen)
        have changed := change_eq symbolHolds holds.position encoding
        simp only [Option.bind_some, changed]
        refine ⟨_, rfl, List.prefix_rfl, Nat.le_succ _, fun _ => .inl, encoding, _,
          trace.dictStringMemRequired, rfl, changed, ?_, known, ?_⟩
        · exact (reads _ _ _).trans applied
        · rintro (isString | first)
          · rw [isBits] at isString
            cases isString
          · exact absolute first
    | none =>
        obtain ⟨dict, mem, number, isEncoding, grows, atMost, isItem, stores⟩ :=
          dictEncoding_spec trace (vcdTruncateBitvec new)
        have isStored : symbol.facility.stored new = vcdTruncateBitvec new := by
          rw [Facility.stored, isBits]
        rw [← isStored] at stores
        have inside : number < dict.count := by
          rw [← length_items]
          exact (List.getElem?_eq_some_iff.mp isItem).1
        have changed := change_eq symbolHolds holds.position (.dict number)
        simp only [isEncoding, Option.bind_some, changed]
        refine ⟨_, rfl, grows, atMost, stores, .dict number, _, mem,
          rfl, changed, ?_, Nat.add_lt_add_right inside _, fun _ => trivial⟩
        rw [reads]
        change (dict.items[number]?).map (fixWidth new.length) = some new
        rw [isItem, Option.map_some, fixWidth_vcdTruncateBitvec]

theorem recordString_spec
    (holds : trace.Holds)
    {handle : Nat}
    {symbol : Symbol}
    {value : Text}
    (isSymbol : trace.symbols[handle]? = some symbol)
    (isString : symbol.facility.kind = .string) :
    Redundant symbol value trace ∧
        trace.recordString handle value = some trace ∨
      ¬ Redundant symbol value trace ∧
        ∃ trace', trace.recordString handle value = some trace' ∧
          Changed handle symbol (symbol.facility.normal value) trace trace' := by
  have symbolHolds := holds.symbols symbol (List.mem_of_getElem? isSymbol)
  have isNormal : symbol.facility.normal value = value := by
    rw [Facility.normal, isString]
  rw [isNormal, recordString, isSymbol]
  simp only [Option.bind_eq_bind, Option.bind_some, isString]
  split
  · rename_i same
    exact .inl ⟨⟨isNormal.trans same, .inl isString⟩, rfl⟩
  · rename_i differ
    right
    refine ⟨fun redundant => differ (isNormal.symm.trans redundant.1), ?_⟩
    obtain ⟨dict, mem, number, isEncoding, grows, atMost, isItem, stores⟩ :=
      dictEncoding_spec trace value
    have isStored : symbol.facility.stored value = value := by
      rw [Facility.stored, isString]
    rw [← isStored] at stores
    have inside : number < dict.count := by
      rw [← length_items]
      exact (List.getElem?_eq_some_iff.mp isItem).1
    have changed := change_eq symbolHolds holds.position (.dict number)
    simp only [isEncoding, Option.bind_some, changed]
    refine ⟨_, rfl, grows, atMost, stores, .dict number, _, mem, rfl,
      changed, ?_, Nat.add_lt_add_right inside _, fun _ => trivial⟩
    rw [Facility.read, isString]
    exact isItem

/-- One of the calls with a value, behind its first lines. -/
def record : Kind → Nat → Text → Trace → Option Trace
  | .bits => recordBits
  | .string => recordString

/-- A call of the other kind than the symbol changes nothing. -/
theorem record_otherKind
    {kind : Kind}
    {handle : Nat}
    {symbol : Symbol}
    {value : Text}
    (isSymbol : trace.symbols[handle]? = some symbol)
    (differ : symbol.facility.kind ≠ kind) :
    record kind handle value trace = some trace := by
  cases kind with
  | bits =>
      have isString : symbol.facility.kind = .string := by
        cases isKind : symbol.facility.kind with
        | bits =>
            exact absurd isKind differ
        | string =>
            rfl
      rw [record, recordBits, isSymbol]
      simp only [Option.bind_eq_bind, Option.bind_some, isString, ite_self]
  | string =>
      have isBits : symbol.facility.kind = .bits := by
        cases isKind : symbol.facility.kind with
        | bits =>
            rfl
        | string =>
            exact absurd isKind differ
      rw [record, recordString, isSymbol]
      simp only [Option.bind_eq_bind, Option.bind_some, isBits]

/-- A value that is recorded is redundant or changes its symbol. -/
theorem record_spec
    (holds : trace.Holds)
    {kind : Kind}
    {handle : Nat}
    {symbol : Symbol}
    {value : Text}
    (isSymbol : trace.symbols[handle]? = some symbol)
    (isKind : symbol.facility.kind = kind) :
    Redundant symbol value trace ∧ record kind handle value trace = some trace ∨
      ¬ Redundant symbol value trace ∧
        ∃ trace', record kind handle value trace = some trace' ∧
          Changed handle symbol (symbol.facility.normal value) trace trace' := by
  cases kind with
  | bits =>
      exact recordBits_spec holds isSymbol isKind
  | string =>
      exact recordString_spec holds isSymbol isKind

/-- What depends on the shapes of the symbols only. -/
theorem names_eq (trace : Trace) :
    trace.names = trace.facilities.map Facility.name := by
  rw [names, facilities, List.map_map]
  rfl

theorem order_congr (same : trace'.facilities = trace.facilities) :
    trace'.order = trace.order := by
  rw [order, order, names_eq, names_eq, same]

theorem facHeader_congr
    (same : trace'.facilities = trace.facilities)
    (sameBytes : trace'.numfacbytes = trace.numfacbytes)
    (sameLongest : trace'.longestname = trace.longestname) :
    trace'.facHeader = trace.facHeader := by
  have sameLength : trace'.symbols.length = trace.symbols.length := by
    have lengths := congrArg List.length same
    rwa [facilities, facilities, List.length_map, List.length_map] at lengths
  simp only [facHeader, sortedFacilities, order_congr same, same, sameBytes,
    sameLongest, sameLength]

theorem set_of_getElem?
    {α : Type}
    {items : List α}
    {place : Nat}
    {item : α}
    (isItem : items[place]? = some item) :
    items.set place item = items := by
  obtain ⟨inside, rfl⟩ := List.getElem?_eq_some_iff.mp isItem
  exact List.set_getElem_self inside

theorem Changed.facilities_eq
    {handle : Nat}
    {symbol : Symbol}
    {value : Text}
    (changed : Changed handle symbol value trace trace')
    (isSymbol : trace.symbols[handle]? = some symbol) :
    trace'.facilities = trace.facilities := by
  obtain ⟨encoding, symbol', mem, isTrace, isChange, _⟩ := changed.change
  have sameFacility := change_facility isChange
  have isFacility : trace.facilities[handle]? = some symbol.facility := by
    rw [facilities, List.getElem?_map, isSymbol]
    rfl
  rw [isTrace]
  change (trace.symbols.set handle _).map Symbol.facility = trace.facilities
  rw [List.map_set]
  change trace.facilities.set handle symbol'.facility = trace.facilities
  rw [sameFacility]
  exact set_of_getElem? isFacility

/-- A value keeps the invariant. -/
theorem Changed.holds
    {handle : Nat}
    {symbol : Symbol}
    {value : Text}
    (changed : Changed handle symbol value trace trace')
    (holds : trace.Holds)
    (isSymbol : trace.symbols[handle]? = some symbol)
    (isCString : IsCString value)
    (isNormal : symbol.facility.normal value = value)
    (isEmitted : trace.emitted = true) :
    trace'.Holds := by
  have sameFacilities := changed.facilities_eq isSymbol
  have symbolHolds := holds.symbols symbol (List.mem_of_getElem? isSymbol)
  have grows : trace.dict.count ≤ trace'.dict.count := by
    rw [← length_items, ← length_items]
    exact changed.grows.length_le
  have texts : ∀ text ∈ trace'.dict.items, IsCString text := by
    intro text member
    rcases changed.stores text member with isOld | rfl
    · exact holds.texts text isOld
    · exact stored_isCString isCString _
  obtain ⟨encoding, symbol', mem, isTrace, isChange, _, known, _⟩ := changed.change
  generalize trace'.dict = dict at *
  subst isTrace
  have sameNames := (names_eq _).trans
    ((congrArg (List.map Facility.name) sameFacilities).trans (names_eq trace).symm)
  have someSymbols : trace.symbols.set handle { symbol' with value := value } ≠
      [] := by
    intro none
    rw [List.set_eq_nil_iff] at none
    exact (holds.written isEmitted).1 none
  exact
    { table := sameNames ▸ holds.table
      distinct := sameNames ▸ holds.distinct
      namesText := sameNames ▸ holds.namesText
      position := holds.position
      granule := holds.granule
      symbols := by
        intro other member
        rcases List.mem_or_eq_of_mem_set member with isOld | isNew
        · exact (holds.symbols other isOld).mono grows
        · rw [isNew]
          exact (symbolHolds.mono grows).change known isNormal isCString isChange
      texts := texts
      masks := holds.masks
      room := holds.room
      written := fun _ =>
        ⟨someSymbols,
          (holds.written isEmitted).2.1.trans
            (congrArg some (order_congr sameFacilities).symm),
          (holds.written isEmitted).2.2.trans
            (congrArg some (facHeader_congr sameFacilities rfl rfl).symm)⟩
      fresh := fun notEmitted => absurd (notEmitted.symm.trans isEmitted)
        Bool.false_ne_true
      flushed := holds.flushed
      free := fun still => absurd still.symm Bool.false_ne_true }

end

end Trace

end Simbus.Lxt2
