import Simbus.Lxt2.Session
import Simbus.Message
import Mathlib

/-!
# The trace file of the server

`make_trace_` and `set_trace_` of the protocols, and what `service_run` does with
the file around them.  The first bus that is assembled records values at once, and
after its first value the file takes no more symbols; so the file has the signals
of this bus alone, with the values of its runs.
-/

set_option autoImplicit false

namespace Simbus.Service

open FourValued (Logic4)
open Lxt2 (CString Facility IsCString Kind Log Trace)

/-! ## Traces of a protocol -/

/-- What `make_trace_` is called with; the type is one of the file. -/
structure TraceLabel where
  lab : String
  kind : Kind
  wid : BitVec 32
  deriving DecidableEq

/-- The character of a bit in `set_trace_`. -/
def bitChar : Logic4 → Char
  | .zero => '0'
  | .one => '1'
  | .z => 'z'
  | .x => 'x'

/-- What `set_trace_` is called with. -/
inductive TraceValue where
  | bit (bit : Logic4)
  | vector (bits : Vector4)
  | string (text : CString)

namespace TraceValue

/-- The kind of the call that a value makes. -/
def kind : TraceValue → Kind
  | .bit _ => .bits
  | .vector _ => .bits
  | .string _ => .string

/-- The characters of a value. -/
def text : TraceValue → Lxt2.Text
  | .bit level => [bitChar level]
  | .vector bits => bits.reverse.map bitChar
  | .string value => value.text

/-- The assertion of `set_trace_`. -/
def Fits : TraceValue → Prop
  | .bit _ => True
  | .vector bits => Traced bits.length
  | .string _ => True

/-- A vector without bits is not recorded. -/
def Counts (value : TraceValue) : Prop :=
  value.kind = .bits → value.text ≠ []

instance (value : TraceValue) : Decidable value.Fits :=
  match value with
  | .bit _ => inferInstanceAs (Decidable True)
  | .vector bits => inferInstanceAs (Decidable (Traced bits.length))
  | .string _ => inferInstanceAs (Decidable True)

instance (value : TraceValue) : Decidable value.Counts :=
  inferInstanceAs (Decidable (_ → _))

end TraceValue

/-- A value for a label. -/
structure Sample where
  lab : String
  value : TraceValue

/-- `signal_trace_map`; a label that it does not have stands for a null pointer. -/
abbrev SignalTraceMap : Type := String → Option Nat

/-- The facility of a label; the name is that of the bus with the label. -/
def traceFacility (name : CString) (label : TraceLabel) : Facility :=
  Trace.facilityOf (name.text ++ '.' :: label.lab.toList) 0 (label.wid - 1) 0
    label.kind

/-- `make_trace_`; it fails for a width that overflows. -/
def makeTrace
    (name : CString)
    (state : Trace × SignalTraceMap)
    (label : TraceLabel) : Option (Trace × SignalTraceMap) := do
  let (sym, trace) ← state.1.symbolAdd (name.text ++ '.' :: label.lab.toList) 0
    (label.wid - 1) 0 label.kind
  some (trace, Function.update state.2 label.lab sym)

/-- `set_trace_` in its three forms. -/
def setTrace
    (signalTraceMap : SignalTraceMap)
    (trace : Trace)
    (sample : Sample) : Option Trace :=
  let sym := signalTraceMap sample.lab
  match sample.value with
  | .bit bit => trace.emitValueBitString sym [bitChar bit]
  | .vector bits =>
      if Traced bits.length then
        trace.emitValueBitString sym (bits.reverse.map bitChar)
      else
        none
  | .string bit => trace.emitValueString sym bit.text

/-- A bus, with its `trace_init` and the values that come with it and `run_init`. -/
structure TracedBus where
  name : CString
  labels : List TraceLabel
  initial : List Sample

/-- The facilities of a bus. -/
def TracedBus.facilities (bus : TracedBus) : List Facility :=
  bus.labels.map (traceFacility bus.name)

/-- The widths of a bus do not overflow, and its first values can be set. -/
structure TracedBus.Fits (bus : TracedBus) : Prop where
  widths : ∀ facility ∈ bus.facilities, facility.InRange
  values : ∀ sample ∈ bus.initial, sample.value.Fits

/-! ## The server -/

/-- The file, and the maps of the buses that are assembled. -/
structure Dump where
  trace : Trace
  signalTraceMaps : String → Option SignalTraceMap

/-- What happens to the file: a bus is assembled, or runs at its time. -/
inductive DumpEvent where
  | assemblyComplete (port : String)
  | busReady (port : String) (time : BitVec 32) (samples : List Sample)

namespace Dump

/-- `assembly_complete`; a bus is assembled once. -/
def assemblyComplete
    (bus : TracedBus)
    (port : String)
    (dump : Dump) : Option Dump :=
  match dump.signalTraceMaps port with
  | some _ => none
  | none => do
      let (trace, signalTraceMap) ←
        bus.labels.foldlM (makeTrace bus.name) (dump.trace, fun _ => none)
      let trace ← bus.initial.foldlM (setTrace signalTraceMap) trace
      some
        { trace := trace
          signalTraceMaps :=
            Function.update dump.signalTraceMaps port (some signalTraceMap) }

/-- The run of a bus in `service_run`; a bus runs when it is assembled. -/
def busReady
    (port : String)
    (time : BitVec 32)
    (samples : List Sample)
    (dump : Dump) : Option Dump := do
  let signalTraceMap ← dump.signalTraceMaps port
  let trace ← dump.trace.setTime time
  let trace ← samples.foldlM (setTrace signalTraceMap) trace
  some { dump with trace := trace }

/-- What the buses do to the file. -/
def perform (buses : String → TracedBus) (dump : Dump) : DumpEvent → Option Dump
  | .assemblyComplete port => dump.assemblyComplete (buses port) port
  | .busReady port time samples => dump.busReady port time samples

/-- `service_init`. -/
def opened : Option Dump :=
  (Trace.init.setTime 0).map fun trace =>
    { trace := trace
      signalTraceMaps := fun _ => none }

/-- The file after some events. -/
def run (buses : String → TracedBus) (events : List DumpEvent) : Option Dump :=
  opened.bind fun dump => events.foldlM (perform buses) dump

/-- The end of `service_run`, and `service_uninit`. -/
def finish (dump : Dump) : Option Trace :=
  dump.trace.flush.bind Trace.close

end Dump

/-! ## Labels -/

/-- Where a label has its symbol, if the first symbols are those of the labels. -/
def labelHandle (labels : List TraceLabel) : SignalTraceMap := fun lab =>
  labels.findIdx? fun label => label.lab = lab

section

variable {labels : List TraceLabel}
variable {name : CString}
variable {trace trace' : Trace}

theorem labelHandle_some
    {lab : String}
    {handle : Nat}
    (isHandle : labelHandle labels lab = some handle) :
    ∃ label, labels[handle]? = some label ∧ label.lab = lab := by
  obtain ⟨inside, isLabel, _⟩ := List.findIdx?_eq_some_iff_getElem.mp isHandle
  exact ⟨labels[handle], List.getElem?_eq_getElem inside, of_decide_eq_true isLabel⟩

/-- Labels are different, so every one has its own symbol. -/
theorem labelHandle_of_getElem?
    (distinct : (labels.map (·.lab)).Nodup)
    {handle : Nat}
    {label : TraceLabel}
    (isLabel : labels[handle]? = some label) :
    labelHandle labels label.lab = some handle := by
  obtain ⟨inside, rfl⟩ := List.getElem?_eq_some_iff.mp isLabel
  refine List.findIdx?_eq_some_iff_getElem.mpr ⟨inside, decide_eq_true rfl, ?_⟩
  intro earlier isEarlier same
  have differ := List.pairwise_iff_getElem.mp distinct earlier handle
    (by rw [List.length_map]; exact isEarlier.trans inside)
    (by rw [List.length_map]; exact inside) isEarlier
  rw [List.getElem_map, List.getElem_map] at differ
  exact differ (of_decide_eq_true same)

theorem labelHandle_concat
    (label : TraceLabel)
    (isNew : label.lab ∉ labels.map (·.lab)) :
    labelHandle (labels ++ [label]) =
      Function.update (labelHandle labels) label.lab (some labels.length) := by
  funext lab
  rw [labelHandle, List.findIdx?_append]
  by_cases same : lab = label.lab
  · subst same
    have isNone : labels.findIdx? (fun other => other.lab = label.lab) = none := by
      rw [List.findIdx?_eq_none_iff]
      intro other member
      exact decide_eq_false fun same =>
        isNew (same ▸ List.mem_map_of_mem member)
    rw [isNone, Function.update_self, List.findIdx?_singleton, if_pos
      (decide_eq_true rfl)]
    exact congrArg some (Nat.zero_add _)
  · rw [Function.update_of_ne same, labelHandle, List.findIdx?_singleton, if_neg
      fun isSame => same (of_decide_eq_true isSame).symm]
    exact Option.or_none

/-- Labels give different names. -/
theorem traceName_inj
    {lab other : String}
    (same : name.text ++ '.' :: lab.toList = name.text ++ '.' :: other.toList) :
    lab = other :=
  String.toList_inj.mp (List.cons.inj (List.append_cancel_left same)).2

/-! ## One value -/

theorem setTrace_eq
    (signalTraceMap : SignalTraceMap)
    (trace : Trace)
    {sample : Sample}
    (fits : sample.value.Fits) :
    setTrace signalTraceMap trace sample =
      Trace.emitValue sample.value.kind (signalTraceMap sample.lab)
        sample.value.text trace := by
  obtain ⟨lab, value⟩ := sample
  cases value with
  | bit level =>
      rfl
  | vector bits =>
      exact if_pos fits
  | string value =>
      rfl

theorem fits_of_setTrace
    {signalTraceMap : SignalTraceMap}
    {sample : Sample}
    (didSet : setTrace signalTraceMap trace sample = some trace') :
    sample.value.Fits := by
  obtain ⟨lab, value⟩ := sample
  cases value with
  | bit level =>
      trivial
  | vector bits =>
      by_contra fails
      have isNone : setTrace signalTraceMap trace ⟨lab, .vector bits⟩ = none :=
        if_neg fails
      rw [isNone] at didSet
      cases didSet
  | string value =>
      trivial

theorem bitChar_isChar (level : Logic4) :
    0 < (bitChar level).toNat ∧ (bitChar level).toNat < 256 := by
  cases level <;> decide

theorem TraceValue.text_isCString (value : TraceValue) : IsCString value.text := by
  cases value with
  | bit level =>
      intro ch member
      rw [List.mem_singleton.mp member]
      exact bitChar_isChar level
  | vector bits =>
      intro ch member
      obtain ⟨level, _, rfl⟩ := List.mem_map.mp member
      exact bitChar_isChar level
  | string value =>
      exact value.isCString

/-! ## A bus that comes too late -/

/-- Behind the first value there are no more symbols. -/
theorem makeTraces_written
    (holds : trace.Holds)
    (isEmitted : trace.emitted = true)
    (name : CString)
    (labels : List TraceLabel) :
    labels.foldlM (makeTrace name) (trace, fun _ => none) =
      some (trace, fun _ => none) := by
  induction labels with
  | nil =>
      rfl
  | cons label labels inductionHypothesis =>
      have isNull : makeTrace name (trace, fun _ => none) label =
          some (trace, fun _ => none) := by
        rw [makeTrace]
        rcases Trace.symbolAdd_cases holds (name.text ++ '.' :: label.lab.toList) 0
          (label.wid - 1) 0 label.kind with ⟨isNone, _⟩ | ⟨⟨notEmitted, _⟩, _⟩
        · rw [isNone]
          exact congrArg (fun sym => some (trace, sym))
            (Function.update_eq_self label.lab _)
        · exact absurd (notEmitted.symm.trans isEmitted) Bool.false_ne_true
      rw [List.foldlM_cons, isNull]
      exact inductionHypothesis

/-- What has no symbols is not recorded. -/
theorem setTraces_null
    {samples : List Sample}
    (didSet : samples.foldlM (setTrace fun _ => none) trace = some trace') :
    trace' = trace := by
  induction samples with
  | nil =>
      exact (Option.some.inj didSet).symm
  | cons sample samples inductionHypothesis =>
      rw [List.foldlM_cons] at didSet
      obtain ⟨next, isNext, isRest⟩ := Option.bind_eq_some_iff.mp didSet
      rw [setTrace_eq _ _ (fits_of_setTrace isNext), Trace.emitValue_none] at isNext
      obtain rfl := Option.some.inj isNext
      exact inductionHypothesis isRest

/-- Values leave the symbols and the invariant. -/
theorem setTraces_goes
    (holds : trace.Holds)
    {signalTraceMap : SignalTraceMap}
    (handles : ∀ lab handle, signalTraceMap lab = some handle →
      handle < trace.facilities.length)
    {samples : List Sample}
    (didSet : samples.foldlM (setTrace signalTraceMap) trace = some trace') :
    trace.Goes trace' ∧
      ((∃ sample ∈ samples, (signalTraceMap sample.lab).isSome ∧
        sample.value.Counts) → trace'.emitted = true) := by
  induction samples generalizing trace with
  | nil =>
      obtain rfl := Option.some.inj didSet
      refine ⟨⟨holds, rfl, id⟩, fun counted => ?_⟩
      obtain ⟨_, member, _⟩ := counted
      cases member
  | cons sample samples inductionHypothesis =>
      rw [List.foldlM_cons] at didSet
      obtain ⟨next, isNext, isRest⟩ := Option.bind_eq_some_iff.mp didSet
      rw [setTrace_eq _ _ (fits_of_setTrace isNext)] at isNext
      have first : trace.Goes next ∧ ((signalTraceMap sample.lab).isSome →
          sample.value.Counts → next.emitted = true) := by
        cases isHandle : signalTraceMap sample.lab with
        | none =>
            rw [isHandle, Trace.emitValue_none] at isNext
            obtain rfl := Option.some.inj isNext
            exact ⟨⟨holds, rfl, id⟩, fun isSome => absurd isSome Bool.false_ne_true⟩
        | some handle =>
            rw [isHandle] at isNext
            have inside := handles sample.lab handle isHandle
            rw [Trace.facilities, List.length_map] at inside
            obtain ⟨_, isTrace, goes, writes⟩ := Trace.emitValue_goes holds
              sample.value.kind inside sample.value.text_isCString
            rw [isNext] at isTrace
            obtain rfl := Option.some.inj isTrace
            exact ⟨goes, fun _ => writes⟩
      obtain ⟨goes, writes⟩ := first
      obtain ⟨goes', writes'⟩ := inductionHypothesis goes.holds
        (fun lab handle isHandle => goes.facilities ▸ handles lab handle isHandle)
        isRest
      refine ⟨goes.trans goes', fun counted => ?_⟩
      obtain ⟨other, member, isSome, counts⟩ := counted
      rcases List.mem_cons.mp member with rfl | isLater
      · exact goes'.emitted (writes isSome counts)
      · exact writes' ⟨other, isLater, isSome, counts⟩

/-- Values of sizes that fit can be set. -/
theorem setTraces_total
    (holds : trace.Holds)
    {signalTraceMap : SignalTraceMap}
    (handles : ∀ lab handle, signalTraceMap lab = some handle →
      handle < trace.facilities.length)
    {samples : List Sample}
    (fits : ∀ sample ∈ samples, sample.value.Fits) :
    ∃ trace', samples.foldlM (setTrace signalTraceMap) trace = some trace' := by
  induction samples generalizing trace with
  | nil =>
      exact ⟨trace, rfl⟩
  | cons sample samples inductionHypothesis =>
      obtain ⟨fitsOne, fitsRest⟩ := List.forall_mem_cons.mp fits
      have first : ∃ next, setTrace signalTraceMap trace sample = some next := by
        rw [setTrace_eq _ _ fitsOne]
        cases isHandle : signalTraceMap sample.lab with
        | none =>
            exact ⟨trace, Trace.emitValue_none _ _⟩
        | some handle =>
            have inside := handles sample.lab handle isHandle
            rw [Trace.facilities, List.length_map] at inside
            obtain ⟨next, isNext, _⟩ := Trace.emitValue_goes holds
              sample.value.kind inside sample.value.text_isCString
            exact ⟨next, isNext⟩
      obtain ⟨next, isNext⟩ := first
      have isFirst : [sample].foldlM (setTrace signalTraceMap) trace = some next := by
        rw [List.foldlM_cons, isNext]
        rfl
      obtain ⟨goes, _⟩ := setTraces_goes holds handles isFirst
      obtain ⟨trace', isRest⟩ := inductionHypothesis goes.holds
        (fun lab handle isHandle => goes.facilities ▸ handles lab handle isHandle)
        fitsRest
      refine ⟨trace', ?_⟩
      rw [List.foldlM_cons, isNext]
      exact isRest

end

/-! ## The first bus -/

/-- A bus that has its values in the file. -/
structure TracedBus.Sound (bus : TracedBus) : Prop where
  distinct : (bus.labels.map (·.lab)).Nodup
  cStrings : ∀ label ∈ bus.labels, IsCString label.lab.toList
  records : ∃ sample ∈ bus.initial, sample.lab ∈ bus.labels.map (·.lab) ∧
    sample.value.Counts

/-- The symbols of the file are those of one bus, and no other bus has any. -/
structure Dump.OneBus
    (dump : Dump)
    (bus : TracedBus)
    (port : String) : Prop where
  holds : dump.trace.Holds
  emitted : dump.trace.emitted = true
  facilities : dump.trace.facilities = bus.facilities
  own : dump.signalTraceMaps port = some (labelHandle bus.labels)
  others : ∀ other signalTraceMap, other ≠ port →
    dump.signalTraceMaps other = some signalTraceMap →
    signalTraceMap = fun _ => none

section

variable {name : CString}
variable {labels : List TraceLabel}
variable {trace : Trace}
variable {log : Log}
variable {count : Nat}

theorem traceName_isCString
    (name : CString)
    {lab : String}
    (isCString : IsCString lab.toList) :
    IsCString (name.text ++ '.' :: lab.toList) := by
  intro ch member
  rcases List.mem_append.mp member with inName | inLabel
  · exact name.isCString ch inName
  · rcases List.mem_cons.mp inLabel with rfl | inLabel
    · decide
    · exact isCString ch inLabel

@[simp] theorem traceFacility_name (name : CString) (label : TraceLabel) :
    (traceFacility name label).name = name.text ++ '.' :: label.lab.toList := by
  obtain ⟨lab, kind, wid⟩ := label
  cases kind <;> rfl

@[simp] theorem traceFacility_kind (name : CString) (label : TraceLabel) :
    (traceFacility name label).kind = label.kind := by
  obtain ⟨lab, kind, wid⟩ := label
  cases kind <;> rfl

/-- A label for which no symbol is there yet gets one. -/
theorem makeTrace_first
    {done : List TraceLabel}
    {label : TraceLabel}
    (isNew : label.lab ∉ done.map (·.lab))
    (isCString : IsCString label.lab.toList)
    (follows : trace.Follows count log)
    (started : trace.Started log)
    (notEmitted : trace.emitted = false)
    (isFacilities : trace.facilities = done.map (traceFacility name))
    {made : Trace × SignalTraceMap}
    (isMade : makeTrace name (trace, labelHandle done) label = some made) :
    made.2 = labelHandle (done ++ [label]) ∧
      made.1.facilities = (done ++ [label]).map (traceFacility name) ∧
      made.1.emitted = false ∧
      made.1.Follows (count + 1) log ∧ made.1.Started log := by
  obtain ⟨⟨sym, trace'⟩, isAdded, isLast⟩ := Option.bind_eq_some_iff.mp isMade
  obtain rfl := Option.some.inj isLast
  obtain ⟨follows', started'⟩ := follows.symbolAdd started
    (traceName_isCString name isCString) isAdded
  rcases Trace.symbolAdd_added follows.holds isAdded with
    ⟨_, _, isEmitted | isKnown⟩ | ⟨_, _, rfl, rfl⟩
  · exact absurd (notEmitted.symm.trans isEmitted) Bool.false_ne_true
  · have names : trace.names = trace.facilities.map Facility.name :=
      List.map_map.symm
    rw [names, isFacilities, List.map_map] at isKnown
    obtain ⟨other, member, same⟩ := List.mem_map.mp isKnown
    rw [Function.comp_apply, traceFacility_name] at same
    exact absurd (List.mem_map_of_mem member) (traceName_inj same ▸ isNew)
  · have isLength : trace.symbols.length = done.length := by
      have sameLength := congrArg List.length isFacilities
      rwa [Trace.facilities, List.length_map, List.length_map] at sameLength
    refine ⟨?_, ?_, notEmitted, follows', started'⟩
    · rw [labelHandle_concat label isNew, isLength]
    · rw [List.map_append, List.map_singleton, ← isFacilities]
      exact List.map_append

/-- The first bus has all its symbols. -/
theorem makeTraces_first
    {done : List TraceLabel}
    (distinct : ((done ++ labels).map (·.lab)).Nodup)
    (cStrings : ∀ label ∈ labels, IsCString label.lab.toList)
    (follows : trace.Follows count log)
    (started : trace.Started log)
    (notEmitted : trace.emitted = false)
    (isFacilities : trace.facilities = done.map (traceFacility name))
    {made : Trace × SignalTraceMap}
    (areMade : labels.foldlM (makeTrace name) (trace, labelHandle done) =
      some made) :
    made.2 = labelHandle (done ++ labels) ∧
      made.1.facilities = (done ++ labels).map (traceFacility name) ∧
      made.1.Follows (count + labels.length) log ∧ made.1.Started log := by
  induction labels generalizing done trace count with
  | nil =>
      obtain rfl := Option.some.inj areMade
      rw [List.append_nil]
      exact ⟨rfl, isFacilities, follows, started⟩
  | cons label labels inductionHypothesis =>
      have isNew : label.lab ∉ done.map (·.lab) := by
        intro member
        rw [List.map_append] at distinct
        exact (List.nodup_append.mp distinct).2.2 _ member _ List.mem_cons_self rfl
      rw [List.foldlM_cons] at areMade
      obtain ⟨⟨trace', signalTraceMap⟩, isMade, areMade⟩ :=
        Option.bind_eq_some_iff.mp areMade
      obtain ⟨rfl, isFacilities', notEmitted', follows', started'⟩ :=
        makeTrace_first isNew (cStrings label List.mem_cons_self) follows started
          notEmitted isFacilities isMade
      rw [List.append_cons] at distinct ⊢
      rw [List.length_cons, Nat.add_comm labels.length 1, ← Nat.add_assoc]
      exact inductionHypothesis distinct (fun other member =>
        cStrings other (List.mem_cons_of_mem _ member)) follows' started'
        notEmitted' isFacilities' areMade

/-- Labels with widths that do not overflow get their symbols. -/
theorem makeTraces_total
    (holds : trace.Holds)
    (cStrings : ∀ label ∈ labels, IsCString label.lab.toList)
    (inRange : ∀ label ∈ labels, (traceFacility name label).InRange)
    (signalTraceMap : SignalTraceMap) :
    ∃ made, labels.foldlM (makeTrace name) (trace, signalTraceMap) = some made := by
  induction labels generalizing trace signalTraceMap with
  | nil =>
      exact ⟨_, rfl⟩
  | cons label labels inductionHypothesis =>
      obtain ⟨sym, trace', isAdded⟩ := Trace.symbolAdd_total holds _
        (inRange label List.mem_cons_self)
      have holds' := Trace.symbolAdd_holds holds
        (traceName_isCString name (cStrings label List.mem_cons_self)) isAdded
      obtain ⟨made, areMade⟩ := inductionHypothesis holds'
        (fun other member => cStrings other (List.mem_cons_of_mem _ member))
        (fun other member => inRange other (List.mem_cons_of_mem _ member))
        (Function.update signalTraceMap label.lab sym)
      refine ⟨made, ?_⟩
      rw [List.foldlM_cons, makeTrace, isAdded]
      exact areMade

end

namespace Dump

section

variable {buses : String → TracedBus}
variable {bus : TracedBus}
variable {first : String}
variable {dump dump' : Dump}

/-- Before any bus there are no symbols, and the time is 0. -/
theorem opened_spec :
    ∃ trace, opened = some ⟨trace, fun _ => none⟩ ∧ trace.facilities = [] ∧
      trace.emitted = false ∧ trace.Follows 0 (Log.empty.setTime 0) ∧
      trace.Started (Log.empty.setTime 0) := by
  have fits : Trace.init.Fits 0 := ⟨by decide, by decide⟩
  obtain ⟨trace, isSet, follows, sameFacilities, timeset, dirty, _⟩ :=
    Trace.opened_follows.setTime64 fits (Std.IsPreorder.le_refl (0 : BitVec 64))
  have isOpened : opened = some ⟨trace, fun _ => none⟩ :=
    congrArg (Option.map _) isSet
  refine ⟨trace, isOpened, sameFacilities, ?_, follows, fun _ => timeset,
    fun _ => dirty, fun given => absurd rfl given⟩
  have notEmitted : (Trace.init.setTime64 0).map Trace.emitted = some false := rfl
  rw [isSet] at notEmitted
  exact Option.some.inj notEmitted

/-- What the assembly of a bus does to the file. -/
theorem assemblyComplete_spec
    {port : String}
    (assembled : dump.assemblyComplete bus port = some dump') :
    dump.signalTraceMaps port = none ∧
      ∃ made signalTraceMap trace,
        bus.labels.foldlM (makeTrace bus.name) (dump.trace, fun _ => none) =
          some (made, signalTraceMap) ∧
        bus.initial.foldlM (setTrace signalTraceMap) made = some trace ∧
        dump' = ⟨trace, Function.update dump.signalTraceMaps port
          (some signalTraceMap)⟩ := by
  rw [assemblyComplete] at assembled
  split at assembled
  · cases assembled
  · rename_i notYet
    obtain ⟨made, areMade, assembled⟩ := Option.bind_eq_some_iff.mp assembled
    obtain ⟨trace, isTrace, isLast⟩ := Option.bind_eq_some_iff.mp assembled
    exact ⟨notYet, _, _, trace, areMade, isTrace, (Option.some.inj isLast).symm⟩

/-- What the run of a bus does to the file. -/
theorem busReady_spec
    {port : String}
    {time : BitVec 32}
    {samples : List Sample}
    (ran : dump.busReady port time samples = some dump') :
    ∃ signalTraceMap timed trace,
      dump.signalTraceMaps port = some signalTraceMap ∧
        dump.trace.setTime64 (time.setWidth 64) = some timed ∧
        samples.foldlM (setTrace signalTraceMap) timed = some trace ∧
        dump' = { dump with trace := trace } := by
  obtain ⟨signalTraceMap, isMap, ran⟩ := Option.bind_eq_some_iff.mp ran
  obtain ⟨timed, isTimed, ran⟩ := Option.bind_eq_some_iff.mp ran
  obtain ⟨trace, isTrace, isLast⟩ := Option.bind_eq_some_iff.mp ran
  exact ⟨signalTraceMap, timed, trace, isMap, isTimed, isTrace,
    (Option.some.inj isLast).symm⟩

theorem handles_inside
    {trace : Trace}
    (isFacilities : trace.facilities = bus.facilities) :
    ∀ lab handle, labelHandle bus.labels lab = some handle →
      handle < trace.facilities.length := by
  intro lab handle isHandle
  obtain ⟨_, isLabel, _⟩ := labelHandle_some isHandle
  rw [isFacilities, TracedBus.facilities, List.length_map]
  exact (List.getElem?_eq_some_iff.mp isLabel).1

/-- The first bus gets all symbols and records a value. -/
theorem first_oneBus
    (sound : bus.Sound)
    (assembled : (opened.bind fun dump => dump.assemblyComplete bus first) =
      some dump) :
    dump.OneBus bus first := by
  obtain ⟨start, isOpened, noFacilities, notEmitted, follows, started⟩ := opened_spec
  rw [isOpened, Option.bind_some] at assembled
  obtain ⟨_, made, signalTraceMap, trace, isMade, isTrace, rfl⟩ :=
    assemblyComplete_spec assembled
  obtain ⟨rfl, isFacilities, follows', _⟩ :=
    @makeTraces_first bus.name bus.labels start _ 0 [] sound.distinct
      sound.cStrings follows started notEmitted noFacilities _ isMade
  obtain ⟨goes, writes⟩ := setTraces_goes follows'.holds
    (handles_inside isFacilities) isTrace
  obtain ⟨sample, member, isLabel, counts⟩ := sound.records
  obtain ⟨label, inLabels, same⟩ := List.mem_map.mp isLabel
  obtain ⟨handle, isHandle⟩ := List.mem_iff_getElem?.mp inLabels
  have isSome : (labelHandle bus.labels sample.lab).isSome := by
    rw [← same, labelHandle_of_getElem? sound.distinct isHandle]
    rfl
  exact
    { holds := goes.holds
      emitted := writes ⟨sample, member, isSome, counts⟩
      facilities := goes.facilities.trans isFacilities
      own := Function.update_self ..
      others := by
        intro other signalTraceMap notFirst isMap
        cases (Function.update_of_ne notFirst _ _).symm.trans isMap }

/-- A later bus gets no symbols, and its first values are lost. -/
theorem OneBus.assembled_late
    (oneBus : dump.OneBus bus first)
    {port : String}
    {other : TracedBus}
    (assembled : dump.assemblyComplete other port = some dump') :
    port ≠ first ∧ dump' = ⟨dump.trace,
      Function.update dump.signalTraceMaps port (some fun _ => none)⟩ := by
  obtain ⟨notYet, made, signalTraceMap, trace, isMade, isTrace, rfl⟩ :=
    assemblyComplete_spec assembled
  rw [makeTraces_written oneBus.holds oneBus.emitted] at isMade
  obtain ⟨rfl, rfl⟩ := Prod.mk.inj (Option.some.inj isMade)
  obtain rfl := setTraces_null isTrace
  refine ⟨?_, rfl⟩
  rintro rfl
  rw [oneBus.own] at notYet
  cases notYet

/-- The run of a later bus does nothing but set the time. -/
theorem OneBus.ran_late
    (oneBus : dump.OneBus bus first)
    {port : String}
    (notFirst : port ≠ first)
    {time : BitVec 32}
    {samples : List Sample}
    (ran : dump.busReady port time samples = some dump') :
    ∃ trace, dump.trace.setTime64 (time.setWidth 64) = some trace ∧
      dump' = { dump with trace := trace } := by
  obtain ⟨signalTraceMap, timed, trace, isMap, isTimed, isTrace, rfl⟩ :=
    busReady_spec ran
  obtain rfl := oneBus.others port signalTraceMap notFirst isMap
  obtain rfl := setTraces_null isTrace
  exact ⟨trace, isTimed, rfl⟩

theorem OneBus.goes
    (oneBus : dump.OneBus bus first)
    {trace : Trace}
    (goes : dump.trace.Goes trace) :
    OneBus { dump with trace := trace } bus first where
  holds := goes.holds
  emitted := goes.emitted oneBus.emitted
  facilities := goes.facilities.trans oneBus.facilities
  own := oneBus.own
  others := oneBus.others

/-- Nothing that happens later changes the symbols of the file. -/
theorem OneBus.perform
    (oneBus : dump.OneBus bus first)
    {event : DumpEvent}
    (performed : dump.perform buses event = some dump') :
    dump'.OneBus bus first := by
  cases event with
  | assemblyComplete port =>
      obtain ⟨notFirst, rfl⟩ := oneBus.assembled_late performed
      exact
        { holds := oneBus.holds
          emitted := oneBus.emitted
          facilities := oneBus.facilities
          own := (Function.update_of_ne notFirst.symm _ _).trans oneBus.own
          others := by
            intro other signalTraceMap isOther isMap
            by_cases same : other = port
            · subst same
              have isNull := Function.update_self other (some fun _ => none)
                dump.signalTraceMaps
              exact (Option.some.inj (isNull.symm.trans isMap)).symm
            · exact oneBus.others other signalTraceMap isOther
                ((Function.update_of_ne same _ _).symm.trans isMap) }
  | busReady port time samples =>
      obtain ⟨timed, isTimed, goes⟩ := Trace.setTime64_goes oneBus.holds
        (time.setWidth 64)
      by_cases isFirst : port = first
      · subst isFirst
        obtain ⟨_, _, trace, isMap, isTimed', isTrace, rfl⟩ := busReady_spec performed
        obtain rfl := Option.some.inj (isMap.symm.trans oneBus.own)
        obtain rfl := Option.some.inj (isTimed.symm.trans isTimed')
        obtain ⟨goes', _⟩ := setTraces_goes goes.holds
          (handles_inside (goes.facilities.trans oneBus.facilities)) isTrace
        exact oneBus.goes (goes.trans goes')
      · obtain ⟨_, isTimed', rfl⟩ := oneBus.ran_late isFirst performed
        obtain rfl := Option.some.inj (isTimed.symm.trans isTimed')
        exact oneBus.goes goes

theorem run_first
    (ran : run buses [.assemblyComplete first] = some dump) :
    (opened.bind fun dump => dump.assemblyComplete (buses first) first) =
      some dump := by
  simpa only [run, perform, List.foldlM_cons, List.foldlM_nil,
    Option.bind_eq_bind, Option.pure_def, Option.bind_fun_some] using ran

theorem run_concat
    {events : List DumpEvent}
    {event : DumpEvent}
    (ran : run buses (events ++ [event]) = some dump') :
    ∃ dump, run buses events = some dump ∧ dump.perform buses event = some dump' := by
  obtain ⟨start, isOpened, ran⟩ := Option.bind_eq_some_iff.mp ran
  rw [List.foldlM_append] at ran
  obtain ⟨dump, isBefore, isLast⟩ := Option.bind_eq_some_iff.mp ran
  obtain ⟨_, isNext, isSame⟩ := Option.bind_eq_some_iff.mp isLast
  obtain rfl := Option.some.inj isSame
  exact ⟨dump, Option.bind_eq_some_iff.mpr ⟨start, isOpened, isBefore⟩, isNext⟩

theorem run_of_concat
    {events : List DumpEvent}
    {event : DumpEvent}
    (ran : run buses events = some dump)
    (performed : dump.perform buses event = some dump') :
    run buses (events ++ [event]) = some dump' := by
  obtain ⟨start, isOpened, ran⟩ := Option.bind_eq_some_iff.mp ran
  rw [run, isOpened, Option.bind_some, List.foldlM_append, ran]
  exact congrArg (Option.bind · pure) performed

theorem run_oneBus
    (sound : (buses first).Sound)
    {rest : List DumpEvent}
    (ran : run buses (.assemblyComplete first :: rest) = some dump) :
    dump.OneBus (buses first) first := by
  induction rest using List.reverseRecOn generalizing dump with
  | nil =>
      exact first_oneBus sound (run_first ran)
  | append_singleton rest event inductionHypothesis =>
      rw [← List.cons_append] at ran
      obtain ⟨before, isBefore, performed⟩ := run_concat ran
      exact (inductionHypothesis isBefore).perform performed

/-- The first bus can be assembled and run if its widths and its values fit. -/
theorem first_total
    (sound : (buses first).Sound)
    (fits : (buses first).Fits) :
    ∃ dump, run buses [.assemblyComplete first] = some dump := by
  obtain ⟨start, isOpened, noFacilities, notEmitted, follows, started⟩ := opened_spec
  obtain ⟨⟨made, signalTraceMap⟩, isMade⟩ :=
    @makeTraces_total (buses first).name (buses first).labels start follows.holds
      sound.cStrings
      (fun label member => fits.widths _ (List.mem_map_of_mem member))
      (fun _ => none)
  obtain ⟨rfl, isFacilities, follows', _⟩ :=
    @makeTraces_first (buses first).name (buses first).labels start _ 0 []
      sound.distinct sound.cStrings follows started notEmitted noFacilities _ isMade
  obtain ⟨trace, isTrace⟩ := setTraces_total follows'.holds
    (handles_inside isFacilities) fits.values
  refine ⟨⟨trace, Function.update (fun _ => none) first
    (some (labelHandle (buses first).labels))⟩, ?_⟩
  rw [run, isOpened, Option.bind_some, List.foldlM_cons, perform, assemblyComplete]
  simp only [isMade, isTrace, List.nil_append, Option.bind_eq_bind,
    Option.bind_some, List.foldlM_nil]
  rfl

theorem OneBus.busReady_total
    (oneBus : dump.OneBus (buses first) first)
    (time : BitVec 32)
    {samples : List Sample}
    (fits : ∀ sample ∈ samples, sample.value.Fits) :
    ∃ dump', dump.perform buses (.busReady first time samples) = some dump' := by
  obtain ⟨timed, isTimed, goes⟩ := Trace.setTime64_goes oneBus.holds
    (time.setWidth 64)
  obtain ⟨trace, isTrace⟩ := setTraces_total goes.holds
    (handles_inside (goes.facilities.trans oneBus.facilities)) fits
  refine ⟨{ dump with trace := trace }, ?_⟩
  rw [Dump.perform, Dump.busReady]
  simp only [oneBus.own, Option.bind_eq_bind, Option.bind_some, Trace.setTime,
    isTimed, isTrace]

end

end Dump

end Simbus.Service
