import Simbus.Service.Dump
import Mathlib

/-!
# The signals of the first bus in the trace file

While the times of the buses do not go back, the file shows for every signal of
the first bus the value that its last run has recorded.
-/

set_option autoImplicit false

namespace Simbus.Service

open Lxt2 (CString Kind Log Trace dictStart readFile)

/-! ## What a bus records -/

/-- No two values of a run differ for the same bits. -/
def Steady (samples : List Sample) : Prop :=
  samples.Pairwise fun earlier later =>
    earlier.lab = later.lab → earlier.value.kind = .bits →
      later.value.kind = .bits → earlier.value.text = later.value.text

instance (samples : List Sample) : Decidable (Steady samples) :=
  inferInstanceAs (Decidable (samples.Pairwise _))

/-- The values of a bus in an event, with their time. -/
def DumpEvent.given
    (buses : String → TracedBus)
    (port : String) : DumpEvent → List (BitVec 64 × Sample)
  | .assemblyComplete other =>
      if other = port then (buses port).initial.map (Prod.mk 0) else []
  | .busReady other time samples =>
      if other = port then samples.map (Prod.mk (time.setWidth 64)) else []

/-- The values of a bus in some events. -/
def given
    (buses : String → TracedBus)
    (port : String)
    (events : List DumpEvent) : List (BitVec 64 × Sample) :=
  events.flatMap (DumpEvent.given buses port)

/-- What counts for a label: a value of its kind which is not empty. -/
def TraceLabel.entry
    (name : CString)
    (label : TraceLabel)
    (given : BitVec 64 × Sample) : Option (BitVec 64 × Lxt2.Text) :=
  if given.2.lab = label.lab ∧ given.2.value.kind = label.kind ∧
      given.2.value.Counts then
    some (given.1, (traceFacility name label).normal given.2.value.text)
  else
    none

/-- The values of a label in some events. -/
def signalHistory
    (buses : String → TracedBus)
    (port : String)
    (label : TraceLabel)
    (events : List DumpEvent) : List (BitVec 64 × Lxt2.Text) :=
  (given buses port events).filterMap (label.entry (buses port).name)

/-- The times of the runs. -/
def DumpEvent.time? : DumpEvent → Option (BitVec 32)
  | .assemblyComplete _ => none
  | .busReady _ time _ => some time

/-- The time that was set last. -/
def timeSet (events : List DumpEvent) : BitVec 32 :=
  (events.filterMap DumpEvent.time?).getLastD 0

/-! ## The log of the file -/

/-- What a value adds to the log. -/
def noteSample
    (signalTraceMap : SignalTraceMap)
    (log : Log)
    (sample : Sample) : Log :=
  match signalTraceMap sample.lab with
  | none => log
  | some handle =>
      if sample.value.Counts then
        log.give sample.value.kind handle sample.value.text
      else
        log

section

variable {name : CString}
variable {labels : List TraceLabel}
variable {trace trace' : Trace}
variable {log : Log}
variable {count : Nat}
variable {samples : List Sample}

@[simp] theorem noteSample_time
    (signalTraceMap : SignalTraceMap)
    (sample : Sample) :
    (noteSample signalTraceMap log sample).time = log.time := by
  rw [noteSample]
  split
  · rfl
  · split <;> rfl

theorem noteSamples_time (signalTraceMap : SignalTraceMap) :
    (samples.foldl (noteSample signalTraceMap) log).time = log.time := by
  induction samples generalizing log with
  | nil =>
      rfl
  | cons sample samples inductionHypothesis =>
      rw [List.foldl_cons, inductionHypothesis, noteSample_time]

/-- Nothing that has been given is forgotten. -/
theorem noteSample_given
    (signalTraceMap : SignalTraceMap)
    (sample : Sample)
    (someValue : log.given ≠ []) :
    (noteSample signalTraceMap log sample).given ≠ [] := by
  rw [noteSample]
  split
  · exact someValue
  · split
    · exact List.append_ne_nil_of_right_ne_nil _ (List.cons_ne_nil _ _)
    · exact someValue

theorem noteSamples_given
    (signalTraceMap : SignalTraceMap)
    (someValue : log.given ≠ []) :
    (samples.foldl (noteSample signalTraceMap) log).given ≠ [] := by
  induction samples generalizing log with
  | nil =>
      exact someValue
  | cons sample samples inductionHypothesis =>
      exact inductionHypothesis (noteSample_given _ sample someValue)

/-- A value that counts is in the log. -/
theorem noteSamples_records
    {signalTraceMap : SignalTraceMap}
    (records : ∃ sample ∈ samples, (signalTraceMap sample.lab).isSome ∧
      sample.value.Counts) :
    (samples.foldl (noteSample signalTraceMap) log).given ≠ [] := by
  induction samples generalizing log with
  | nil =>
      obtain ⟨_, member, _⟩ := records
      cases member
  | cons sample samples inductionHypothesis =>
      obtain ⟨other, member, isSome, counts⟩ := records
      rw [List.foldl_cons]
      rcases List.mem_cons.mp member with rfl | isLater
      · apply noteSamples_given
        obtain ⟨handle, isHandle⟩ := Option.isSome_iff_exists.mp isSome
        rw [noteSample, isHandle]
        simp only [if_pos counts]
        exact List.append_ne_nil_of_right_ne_nil _ (List.cons_ne_nil _ _)
      · exact inductionHypothesis ⟨other, isLater, isSome, counts⟩

/-- The log has the values of a label under its symbol. -/
theorem noteSamples_values
    (distinct : (labels.map (·.lab)).Nodup)
    {handle : Nat}
    {label : TraceLabel}
    (isLabel : labels[handle]? = some label) :
    (samples.foldl (noteSample (labelHandle labels)) log).values handle
        (traceFacility name label) =
      log.values handle (traceFacility name label) ++
        (samples.map (Prod.mk log.time)).filterMap (label.entry name) := by
  induction samples generalizing log with
  | nil =>
      exact (List.append_nil _).symm
  | cons sample samples inductionHypothesis =>
      have isOne : (noteSample (labelHandle labels) log sample).values handle
          (traceFacility name label) =
            log.values handle (traceFacility name label) ++
              (label.entry name (log.time, sample)).toList := by
        rw [noteSample, TraceLabel.entry]
        cases isHandle : labelHandle labels sample.lab with
        | none =>
            have notLabel : sample.lab ≠ label.lab := by
              intro same
              rw [same, labelHandle_of_getElem? distinct isLabel] at isHandle
              cases isHandle
            rw [if_neg fun own => notLabel own.1]
            exact (List.append_nil _).symm
        | some other =>
            have isOwn : other = handle ↔ sample.lab = label.lab := by
              constructor
              · rintro rfl
                obtain ⟨_, isOther, same⟩ := labelHandle_some isHandle
                rw [isLabel] at isOther
                rw [← same, Option.some.inj isOther]
              · intro same
                rw [same, labelHandle_of_getElem? distinct isLabel] at isHandle
                exact (Option.some.inj isHandle).symm
            by_cases counts : sample.value.Counts
            · simp only [if_pos counts, Log.values_give, traceFacility_kind, isOwn]
              congr 1
              by_cases own : sample.lab = label.lab ∧ sample.value.kind = label.kind
              · rw [if_pos own, if_pos ⟨own.1, own.2, counts⟩]
                rfl
              · rw [if_neg own, if_neg fun isEntry => own ⟨isEntry.1, isEntry.2.1⟩]
                rfl
            · simp only [if_neg counts]
              rw [if_neg fun isEntry => counts isEntry.2.2]
              exact (List.append_nil _).symm
      rw [List.foldl_cons, inductionHypothesis, noteSample_time, isOne,
        List.append_assoc, List.map_cons]
      congr 1
      cases isEntry : label.entry name (log.time, sample) with
      | none =>
          rw [List.filterMap_cons_none isEntry]
          rfl
      | some entry =>
          rw [List.filterMap_cons_some isEntry]
          rfl

/-- What follows must not differ from the bits that have been given since the time. -/
def Continues
    (labels : List TraceLabel)
    (log : Log)
    (samples : List Sample) : Prop :=
  ∀ sample ∈ samples, sample.value.kind = .bits →
    ∀ entry ∈ log.period, labelHandle labels sample.lab = some entry.1 →
      entry.2 = sample.value.text

/-- The bits that a value adds are those that may still come. -/
theorem Continues.noteSample
    {sample : Sample}
    (continues : Continues labels log (sample :: samples))
    (steady : Steady (sample :: samples)) :
    Continues labels (noteSample (labelHandle labels) log sample) samples := by
  have isLater : Continues labels log samples := fun other member =>
    continues other (List.mem_cons_of_mem _ member)
  rw [Service.noteSample]
  split
  · exact isLater
  · rename_i handle isHandle
    split
    · intro other member isBits entry inPeriod isEntry
      cases isKind : sample.value.kind with
      | string =>
          rw [isKind] at inPeriod
          exact isLater other member isBits entry inPeriod isEntry
      | bits =>
          rw [isKind] at inPeriod
          rcases List.mem_append.mp inPeriod with isOld | isNew
          · exact isLater other member isBits entry isOld isEntry
          · obtain rfl := List.mem_singleton.mp isNew
            obtain ⟨label, isLabel, sameLabel⟩ := labelHandle_some isHandle
            obtain ⟨label', isLabel', sameLabel'⟩ := labelHandle_some isEntry
            obtain rfl := Option.some.inj (isLabel.symm.trans isLabel')
            exact (List.pairwise_cons.mp steady).1 other member
              (sameLabel.symm.trans sameLabel') isKind isBits
    · exact isLater

theorem inside_of_facilities
    (isFacilities : trace.facilities = labels.map (traceFacility name)) :
    trace.symbols.length = labels.length := by
  have sameLength := congrArg List.length isFacilities
  rwa [Trace.facilities, List.length_map, List.length_map] at sameLength

/-- The file follows one value. -/
theorem follows_setTrace
    {sample : Sample}
    (isFacilities : trace.facilities = labels.map (traceFacility name))
    (follows : trace.Follows count log)
    (started : trace.Started log)
    (fits : trace.Fits count)
    (continues : Continues labels log (sample :: samples))
    (didSet : setTrace (labelHandle labels) trace sample = some trace') :
    trace'.Follows (count + 1) (noteSample (labelHandle labels) log sample) ∧
      trace'.Started (noteSample (labelHandle labels) log sample) ∧
      trace'.facilities = trace.facilities := by
  rw [setTrace_eq _ _ (fits_of_setTrace didSet)] at didSet
  rw [noteSample]
  cases isHandle : labelHandle labels sample.lab with
  | none =>
      rw [isHandle, Trace.emitValue_none] at didSet
      obtain rfl := Option.some.inj didSet
      exact ⟨follows.more (Nat.le_succ _), started, rfl⟩
  | some handle =>
      obtain ⟨_, isLabel, _⟩ := labelHandle_some isHandle
      have inside := (List.getElem?_eq_some_iff.mp isLabel).1
      rw [← inside_of_facilities isFacilities] at inside
      rw [isHandle] at didSet
      simp only
      split
      · rename_i counts
        obtain ⟨_, isNext, follows', sameFacilities, started'⟩ :=
          follows.emitValue started fits inside sample.value.text_isCString counts
            fun isBits earlier member => continues sample List.mem_cons_self isBits
              (handle, earlier) member isHandle
        obtain rfl := Option.some.inj (didSet.symm.trans isNext)
        exact ⟨follows', started', sameFacilities⟩
      · rename_i notCounts
        obtain ⟨isBits, isNil⟩ := Classical.not_imp.mp notCounts
        rw [isBits, not_not.mp isNil, Trace.emitValue_empty] at didSet
        obtain rfl := Option.some.inj didSet
        exact ⟨follows.more (Nat.le_succ _), started, rfl⟩

/-- The file follows the values of a run. -/
theorem follows_setTraces
    (isFacilities : trace.facilities = labels.map (traceFacility name))
    (follows : trace.Follows count log)
    (started : trace.Started log)
    (texts : count + samples.length + dictStart ≤ 256 ^ 4)
    (symbols : labels.length < 256 ^ 3)
    (steady : Steady samples)
    (continues : Continues labels log samples)
    (didSet : samples.foldlM (setTrace (labelHandle labels)) trace =
      some trace') :
    trace'.Follows (count + samples.length)
        (samples.foldl (noteSample (labelHandle labels)) log) ∧
      trace'.Started (samples.foldl (noteSample (labelHandle labels)) log) := by
  induction samples generalizing trace log count with
  | nil =>
      obtain rfl := Option.some.inj didSet
      exact ⟨follows, started⟩
  | cons sample samples inductionHypothesis =>
      rw [List.foldlM_cons] at didSet
      obtain ⟨next, isNext, isRest⟩ := Option.bind_eq_some_iff.mp didSet
      rw [List.length_cons, Nat.add_comm samples.length 1, ← Nat.add_assoc]
        at texts ⊢
      have fits : trace.Fits count :=
        ⟨(Nat.add_le_add_right (Nat.le_add_right _ _) _).trans
          ((Nat.add_le_add_right (Nat.le_add_right _ _) _).trans texts),
          inside_of_facilities isFacilities ▸ symbols⟩
      obtain ⟨follows', started', sameFacilities⟩ :=
        follows_setTrace isFacilities follows started fits continues isNext
      exact inductionHypothesis (sameFacilities.trans isFacilities) follows' started'
        texts (List.pairwise_cons.mp steady).2 (continues.noteSample steady) isRest

end

/-! ## Runs -/

namespace Dump

/-- The file has what the events have given to the first bus. -/
structure Recorded
    (buses : String → TracedBus)
    (first : String)
    (events : List DumpEvent)
    (dump : Dump) : Prop where
  oneBus : dump.OneBus (buses first) first
  log : ∃ log, dump.trace.Follows
      ((buses first).labels.length + (given buses first events).length) log ∧
    dump.trace.Started log ∧
    log.time = (timeSet events).setWidth 64 ∧ log.given ≠ [] ∧
    ∀ handle label, (buses first).labels[handle]? = some label →
      log.values handle (traceFacility (buses first).name label) =
        signalHistory buses first label events

/-- Nothing that a 32-bit counter could not number has happened. -/
structure Few
    (buses : String → TracedBus)
    (first : String)
    (events : List DumpEvent) : Prop where
  texts : (buses first).labels.length + (given buses first events).length +
    dictStart ≤ 256 ^ 4
  symbols : (buses first).labels.length < 256 ^ 3

section

variable {buses : String → TracedBus}
variable {first : String}
variable {dump dump' : Dump}
variable {events : List DumpEvent}

theorem given_concat (event : DumpEvent) :
    given buses first (events ++ [event]) =
      given buses first events ++ event.given buses first := by
  rw [given, List.flatMap_append]
  exact congrArg _ (List.flatMap_singleton _ _)

theorem signalHistory_concat (label : TraceLabel) (event : DumpEvent) :
    signalHistory buses first label (events ++ [event]) =
      signalHistory buses first label events ++
        (event.given buses first).filterMap (label.entry (buses first).name) := by
  rw [signalHistory, given_concat, List.filterMap_append]
  rfl

theorem Few.of_concat
    {event : DumpEvent}
    (few : Few buses first (events ++ [event])) :
    Few buses first events where
  texts := by
    have texts := few.texts
    rw [given_concat, List.length_append] at texts
    exact (Nat.add_le_add_right (Nat.add_le_add_left (Nat.le_add_right _ _) _)
      _).trans texts
  symbols := few.symbols

theorem timeSet_concat (event : DumpEvent) :
    timeSet (events ++ [event]) = event.time?.getD (timeSet events) := by
  rw [timeSet, List.filterMap_append]
  cases isTime : event.time? with
  | none =>
      rw [List.filterMap_cons_none isTime]
      exact congrArg (List.getLastD · 0) (List.append_nil _)
  | some time =>
      rw [List.filterMap_cons_some isTime]
      exact List.getLastD_concat

theorem Few.fits
    (few : Few buses first events)
    (oneBus : dump.OneBus (buses first) first) :
    dump.trace.Fits
      ((buses first).labels.length + (given buses first events).length) :=
  ⟨few.texts, inside_of_facilities oneBus.facilities ▸ few.symbols⟩

/-- The first values of the first bus. -/
theorem first_recorded
    (sound : (buses first).Sound)
    (steady : Steady (buses first).initial)
    (few : Few buses first [.assemblyComplete first])
    (ran : run buses [.assemblyComplete first] = some dump) :
    dump.Recorded buses first [.assemblyComplete first] := by
  have isGiven : given buses first [.assemblyComplete first] =
      (buses first).initial.map (Prod.mk 0) := by
    rw [given, List.flatMap_singleton]
    exact if_pos rfl
  have texts := few.texts
  rw [isGiven, List.length_map] at texts
  obtain ⟨start, isOpened, noFacilities, notEmitted, follows, started⟩ := opened_spec
  have assembled := run_first ran
  have oneBus := first_oneBus sound assembled
  rw [isOpened, Option.bind_some] at assembled
  obtain ⟨_, made, signalTraceMap, trace, isMade, isTrace, rfl⟩ :=
    assemblyComplete_spec assembled
  obtain ⟨rfl, isFacilities, follows', started'⟩ :=
    @makeTraces_first (buses first).name (buses first).labels start _ 0 []
      sound.distinct sound.cStrings follows started notEmitted noFacilities _ isMade
  rw [Nat.zero_add] at follows'
  obtain ⟨follows'', started''⟩ := follows_setTraces isFacilities follows' started'
    texts few.symbols steady (fun _ _ _ _ member => absurd member List.not_mem_nil)
    isTrace
  obtain ⟨sample, member, isLabel, counts⟩ := sound.records
  obtain ⟨label, inLabels, same⟩ := List.mem_map.mp isLabel
  obtain ⟨handle, isHandle⟩ := List.mem_iff_getElem?.mp inLabels
  have isSome : (labelHandle (buses first).labels sample.lab).isSome := by
    rw [← same, labelHandle_of_getElem? sound.distinct isHandle]
    rfl
  refine ⟨oneBus, _, ?_, started'', ?_, ?_, ?_⟩
  · rw [isGiven, List.length_map]
    exact follows''
  · rw [noteSamples_time]
    rfl
  · exact noteSamples_records ⟨sample, member, isSome, counts⟩
  · intro handle label isLabel
    refine (noteSamples_values sound.distinct isLabel).trans ?_
    rw [signalHistory, isGiven]
    exact List.nil_append _

/-- What an event adds, if its time is not before the time set last. -/
theorem Recorded.perform
    (recorded : dump.Recorded buses first events)
    (distinct : ((buses first).labels.map (·.lab)).Nodup)
    {event : DumpEvent}
    (few : Few buses first (events ++ [event]))
    (rising : ∀ time, event.time? = some time → timeSet events ≤ time)
    (steady : ∀ time samples, event = .busReady first time samples → Steady samples)
    (performed : dump.perform buses event = some dump') :
    dump'.Recorded buses first (events ++ [event]) := by
  have oneBus := recorded.oneBus
  have oneBus' := oneBus.perform performed
  obtain ⟨log, follows, started, isTime, someValue, isHistory⟩ := recorded.log
  refine ⟨oneBus', ?_⟩
  simp only [signalHistory_concat, given_concat, timeSet_concat]
  cases event with
  | assemblyComplete port =>
      obtain ⟨notFirst, rfl⟩ := oneBus.assembled_late performed
      have noValues : (DumpEvent.assemblyComplete port).given buses first = [] :=
        if_neg notFirst
      refine ⟨log, ?_, started, isTime, someValue, ?_⟩
      · rw [noValues, List.append_nil]
        exact follows
      · intro handle label isLabel
        rw [noValues, isHistory handle label isLabel]
        exact (List.append_nil _).symm
  | busReady port time samples =>
      have notBack : log.time ≤ time.setWidth 64 := by
        rw [isTime, BitVec.le_def, BitVec.toNat_setWidth, BitVec.toNat_setWidth]
        have small := Nat.mod_le (timeSet events).toNat (2 ^ 64)
        have exact := Nat.mod_eq_of_lt (time.isLt.trans (by decide : 2 ^ 32 < 2 ^ 64))
        rw [exact]
        exact small.trans (BitVec.le_def.mp (rising time rfl))
      obtain ⟨timed, isTimed, follows', sameFacilities, isSet, isDirty, isEmitted⟩ :=
        follows.setTime64 (few.of_concat.fits oneBus) notBack
      have started' : timed.Started (log.setTime (time.setWidth 64)) :=
        ⟨fun _ => isSet, fun _ => isDirty, fun _ => isEmitted oneBus.emitted⟩
      by_cases isFirst : port = first
      · subst isFirst
        have isGiven : (DumpEvent.busReady port time samples).given buses port =
            samples.map (Prod.mk (time.setWidth 64)) := if_pos rfl
        have texts := few.texts
        rw [given_concat, isGiven, List.length_append, List.length_map,
          ← Nat.add_assoc] at texts
        obtain ⟨_, _, trace, isMap, isTimed', isTrace, rfl⟩ :=
          busReady_spec performed
        obtain rfl := Option.some.inj (isMap.symm.trans oneBus.own)
        obtain rfl := Option.some.inj (isTimed.symm.trans isTimed')
        obtain ⟨follows'', started''⟩ := follows_setTraces
          (sameFacilities.trans oneBus.facilities) follows' started' texts
          few.symbols (steady time samples rfl)
          (fun _ _ _ _ member => absurd member List.not_mem_nil) isTrace
        refine ⟨_, ?_, started'', ?_, ?_, ?_⟩
        · rw [isGiven, List.length_append, List.length_map, ← Nat.add_assoc]
          exact follows''
        · rw [noteSamples_time]
          rfl
        · exact noteSamples_given _ someValue
        · intro handle label isLabel
          refine (noteSamples_values distinct isLabel).trans ?_
          rw [isGiven, ← isHistory handle label isLabel]
          rfl
      · have noValues : (DumpEvent.busReady port time samples).given buses first =
            [] := if_neg isFirst
        obtain ⟨_, isTimed', rfl⟩ := oneBus.ran_late isFirst performed
        obtain rfl := Option.some.inj (isTimed.symm.trans isTimed')
        refine ⟨log.setTime (time.setWidth 64), ?_, started', rfl, someValue, ?_⟩
        · rw [noValues, List.append_nil]
          exact follows'
        · intro handle label isLabel
          rw [noValues, ← isHistory handle label isLabel]
          exact (List.append_nil _).symm

theorem timeSet_le
    {event : DumpEvent}
    (rising : ((events ++ [event]).filterMap DumpEvent.time?).Pairwise (· ≤ ·))
    {time : BitVec 32}
    (isTime : event.time? = some time) :
    timeSet events ≤ time := by
  rw [List.filterMap_append, List.pairwise_append] at rising
  rcases List.eq_nil_or_concat (events.filterMap DumpEvent.time?) with
    none | ⟨before, last, isLast⟩
  · rw [timeSet, none]
    exact BitVec.le_def.mpr (Nat.zero_le _)
  · rw [timeSet, isLast, List.concat_eq_append, List.getLastD_concat]
    refine rising.2.2 last ?_ time ?_
    · rw [isLast, List.concat_eq_append]
      exact List.mem_append_right _ List.mem_cons_self
    · rw [List.filterMap_cons_some isTime]
      exact List.mem_cons_self

/-- The first bus goes on being recorded while the times do not go back. -/
theorem run_recorded
    (sound : (buses first).Sound)
    (steadyFirst : Steady (buses first).initial)
    {rest : List DumpEvent}
    (few : Few buses first (.assemblyComplete first :: rest))
    (rising : (rest.filterMap DumpEvent.time?).Pairwise (· ≤ ·))
    (steady : ∀ time samples, .busReady first time samples ∈ rest →
      Steady samples)
    (ran : run buses (.assemblyComplete first :: rest) = some dump) :
    dump.Recorded buses first (.assemblyComplete first :: rest) := by
  induction rest using List.reverseRecOn generalizing dump with
  | nil =>
      exact first_recorded sound steadyFirst few ran
  | append_singleton rest event inductionHypothesis =>
      rw [← List.cons_append] at ran few ⊢
      obtain ⟨before, isBefore, performed⟩ := run_concat ran
      have risingBefore := rising
      rw [List.filterMap_append, List.pairwise_append] at risingBefore
      have recorded := inductionHypothesis few.of_concat risingBefore.1
        (fun time samples member =>
          steady time samples (List.mem_append_left _ member)) isBefore
      refine recorded.perform sound.distinct few ?_ ?_ performed
      · intro time isTime
        exact @timeSet_le rest event rising time isTime
      · rintro time samples rfl
        exact steady time samples (List.mem_append_right _ List.mem_cons_self)

/--
The file shows for every signal of the first bus the value of its last run up to
a time, while the times of all buses do not go back.
-/
theorem Recorded.playback
    (recorded : dump.Recorded buses first events)
    (few : Few buses first events) :
    ∃ closed waveform, dump.finish = some closed ∧
      readFile closed = some waveform ∧
      ∀ label ∈ (buses first).labels, ∀ time,
        waveform.value ((buses first).name.text ++ '.' :: label.lab.toList) time =
          some (Timeline.valueAt (traceFacility (buses first).name label).initial
            (signalHistory buses first label events) time) := by
  have oneBus := recorded.oneBus
  obtain ⟨log, follows, started, _, someValue, isHistory⟩ := recorded.log
  obtain ⟨closed, waveform, isClosed, isFile, values⟩ :=
    follows.closes started (few.fits oneBus) oneBus.emitted
  refine ⟨closed, waveform, ?_, isFile, fun label member time => ?_⟩
  · exact (Trace.flush_bind_close oneBus.holds).trans isClosed
  · obtain ⟨handle, isLabel⟩ := List.mem_iff_getElem?.mp member
    have isFacility : dump.trace.facilities[handle]? =
        some (traceFacility (buses first).name label) := by
      rw [oneBus.facilities, TracedBus.facilities, List.getElem?_map, isLabel]
      rfl
    have isValue := values handle _ isFacility time
    rw [traceFacility_name, isHistory handle label isLabel] at isValue
    exact isValue

end

end Dump

end Simbus.Service
