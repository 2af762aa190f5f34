import Simbus.Clocked.Guarantee

/-!
# Clients that return

A client that takes some replies and is done with the last of them.  The
exchanges until then are the states in which it waited, each with the reply that
it got.  Sequences and loops are put together from their parts.
-/

namespace Clocked

section

variable {State Input Value Result : Type}

/-- A client returns with the last of some replies, after some exchanges. -/
inductive Returns :
    Behavior State Input Value → List Input → List (State × Input) →
      Value → State → Prop where
  | finish
      (value : Value)
      (state : State) :
      Returns (.finish value state) [] [] value state
  | await
      {state final : State}
      {next : Input → Behavior State Input Value}
      {input : Input}
      {inputs : List Input}
      {exchanges : List (State × Input)}
      {value : Value}
      (later : Returns (next input) inputs exchanges value final) :
      Returns (.await state next) (input :: inputs)
        ((state, input) :: exchanges) value final

variable {behavior : Behavior State Input Value}
variable {inputs later : List Input}
variable {exchanges : List (State × Input)}
variable {value : Value}
variable {state middle final : State}

/-! ## What a client does on its replies -/

theorem Returns.run
    (returns : Returns behavior inputs exchanges value final) :
    behavior.run inputs = .finished value final [] := by
  induction returns with
  | finish value state =>
      rfl
  | await later inductionHypothesis =>
      exact inductionHypothesis

/-- Whoever is done with the last reply has returned. -/
theorem returns_of_run
    (finished : behavior.run inputs = .finished value final []) :
    ∃ exchanges, Returns behavior inputs exchanges value final := by
  induction inputs generalizing behavior with
  | nil =>
      rw [Behavior.eq_finish finished]
      exact ⟨[], .finish value final⟩
  | cons input inputs inductionHypothesis =>
      rcases behavior.cases_now with ⟨_, _, rfl⟩ | ⟨_, rfl⟩ | ⟨state, waits⟩
      · cases finished
      · cases finished
      · rw [waits] at finished ⊢
        obtain ⟨exchanges, returns⟩ := inductionHypothesis finished
        exact ⟨_, .await returns⟩

theorem Returns.unique
    {value' : Value}
    {final' : State}
    {exchanges' : List (State × Input)}
    (returns : Returns behavior inputs exchanges value final)
    (returns' : Returns behavior inputs exchanges' value' final') :
    value' = value ∧ final' = final := by
  have same := returns'.run
  rw [returns.run, Outcome.finished.injEq] at same
  exact ⟨same.1.symm, same.2.1.symm⟩

/-- A client does not return twice on one sequence of replies. -/
theorem Returns.of_prefix
    {inputs' : List Input}
    {value' : Value}
    {final' : State}
    {exchanges' : List (State × Input)}
    (returns : Returns behavior inputs exchanges value final)
    (returns' : Returns behavior inputs' exchanges' value' final')
    (isPrefix : inputs <+: inputs') :
    inputs' = inputs := by
  obtain ⟨rest, rfl⟩ := isPrefix
  obtain ⟨used, split, stable⟩ := behavior.causal.finished returns.run
  rw [List.append_nil] at split
  subst split
  have same := stable rest
  rw [returns'.run, Outcome.finished.injEq] at same
  rw [← same.2.2, List.append_nil]

/-- The same with either sequence of replies the longer one. -/
theorem Returns.of_comparable
    {inputs' : List Input}
    {value' : Value}
    {final' : State}
    {exchanges' : List (State × Input)}
    (returns : Returns behavior inputs exchanges value final)
    (returns' : Returns behavior inputs' exchanges' value' final')
    (comparable : inputs <+: inputs' ∨ inputs' <+: inputs) :
    value' = value ∧ final' = final := by
  rcases comparable with isPrefix | isPrefix
  · rw [returns.of_prefix returns' isPrefix] at returns'
    exact returns.unique returns'
  · rw [returns'.of_prefix returns isPrefix] at returns
    exact returns.unique returns'

/-- A client that has waited was not done before. -/
theorem Returns.not_done
    (returns : Returns behavior inputs exchanges value final)
    (exchanged : inputs ≠ [])
    (early : Value)
    (before : State)
    (rest : List Input) :
    behavior.run [] ≠ .finished early before rest := by
  intro done
  have same := returns.run
  rw [Behavior.eq_finish done, Behavior.run_finish, Outcome.finished.injEq]
    at same
  exact exchanged same.2.2

/-! ## Sequences -/

theorem Returns.bind
    {next : Value → State → Behavior State Input Result}
    {exchangesLater : List (State × Input)}
    {result : Result}
    (first : Returns behavior inputs exchanges value middle)
    (second : Returns (next value middle) later exchangesLater result final) :
    Returns (behavior.bind next) (inputs ++ later)
      (exchanges ++ exchangesLater) result final := by
  induction first with
  | finish value state =>
      exact second
  | await _ inductionHypothesis =>
      rw [Behavior.await_bind]
      exact .await (inductionHypothesis second)

/-- A sequence that returns has done so in two parts. -/
theorem Returns.split
    {next : Value → State → Behavior State Input Result}
    {result : Result}
    (returns : Returns (behavior.bind next) inputs exchanges result final) :
    ∃ first second value middle exchangesFirst exchangesSecond,
      inputs = first ++ second ∧
      Returns behavior first exchangesFirst value middle ∧
      Returns (next value middle) second exchangesSecond result final := by
  have ran := returns.run
  simp only [Behavior.bind] at ran
  split at ran
  · cases ran
  · rename_i value middle rest finished
    obtain ⟨used, rfl, stable⟩ := behavior.causal.finished finished
    have early := stable []
    rw [List.append_nil] at early
    obtain ⟨exchangesFirst, first⟩ := returns_of_run early
    obtain ⟨exchangesSecond, second⟩ := returns_of_run ran
    exact ⟨used, rest, value, middle, exchangesFirst, exchangesSecond, rfl,
      first, second⟩
  · cases ran

/-! ## Loops -/

section Loop

variable {Local : Type}
variable {body : Local → Program State Input (Local ⊕ Result)}
variable {current next : Local}
variable {result : Result}
variable {exchangesLater : List (State × Input)}

/-- A turn that returns a result ends the loop. -/
theorem Returns.loopDone
    (turn : Returns ((body current).start state) inputs exchanges (.inr result)
      final) :
    Returns ((Program.loop body current).start state) inputs exchanges result
      final := by
  have start : (Program.loop body current).start state =
      ((body current).start state).bind fun outcome =>
        (Program.loopNext body outcome).start := by
    refine Program.start_loop fun next before rest done => ?_
    have same := turn.run
    rw [Behavior.eq_finish done, Behavior.run_finish, Outcome.finished.injEq]
      at same
    cases same.1
  have ends : Returns ((Program.loopNext body (.inr result)).start final) [] []
      result final := .finish result final
  rw [start, ← List.append_nil inputs, ← List.append_nil exchanges]
  exact turn.bind ends

/-- A turn that goes on is followed by the rest of the loop. -/
theorem Returns.loopTurn
    (turn : Returns ((body current).start state) inputs exchanges (.inl next)
      middle)
    (exchanged : inputs ≠ [])
    (rest : Returns ((Program.loop body next).start middle) later exchangesLater
      result final) :
    Returns ((Program.loop body current).start state) (inputs ++ later)
      (exchanges ++ exchangesLater) result final := by
  rw [Program.start_loop fun next before rest =>
    turn.not_done exchanged (.inl next) before rest]
  exact turn.bind rest

end Loop

section While

variable {condition : State → Bool}
variable {body : Program State Input Unit}
variable {exchangesLater : List (State × Input)}

theorem Returns.whileDone
    (ends : condition state = false) :
    Returns ((Program.whileDo condition body).start state) [] [] () state := by
  rw [Program.start_whileDo_false ends]
  exact .finish () state

theorem Returns.whileTurn
    (goesOn : condition state = true)
    (turn : Returns (body.start state) inputs exchanges () middle)
    (exchanged : inputs ≠ [])
    (rest : Returns ((Program.whileDo condition body).start middle) later
      exchangesLater () final) :
    Returns ((Program.whileDo condition body).start state) (inputs ++ later)
      (exchanges ++ exchangesLater) () final := by
  rw [Program.start_whileDo_true goesOn fun before rest =>
    turn.not_done exchanged () before rest]
  exact turn.bind rest

/-- A loop waits where its first turn does. -/
theorem whileDo_waits
    (goesOn : condition state = true)
    (waits : (body.start state).run [] = .waiting middle) :
    ((Program.whileDo condition body).start state).run [] =
      .waiting middle := by
  rw [Program.start_whileDo_true goesOn (by simp [waits])]
  simp only [Behavior.bind, waits]

end While

/-! ## Turns of a program -/

/--
A program is run again and again, each time on its own replies, and each time
with the same value.
-/
inductive Turns
    (turn : Program State Input Value)
    (goOn : Value) :
    State → List (List Input) → List State → Prop where
  | none
      {state : State} :
      Turns turn goOn state [] []
  | turn
      {state next : State}
      {inputs : List Input}
      {exchanges : List (State × Input)}
      {others : List (List Input)}
      {states : List State}
      (once : Returns (turn.start state) inputs exchanges goOn next)
      (rest : Turns turn goOn next others states) :
      Turns turn goOn state (inputs :: others) (next :: states)

theorem Turns.length
    {turn : Program State Input Value}
    {goOn : Value}
    {replies : List (List Input)}
    {states : List State}
    (turns : Turns turn goOn state replies states) :
    states.length = replies.length := by
  induction turns with
  | none =>
      rfl
  | turn _ _ inductionHypothesis =>
      rw [List.length_cons, List.length_cons, inductionHypothesis]

/-- The replies of some turns and of some more of them. -/
theorem take_flatten_comparable
    (replies : List (List Input))
    (count count' : Nat) :
    (replies.take count).flatten <+: (replies.take count').flatten ∨
      (replies.take count').flatten <+: (replies.take count).flatten := by
  have increasing {count count' : Nat} (le : count ≤ count') :
      (replies.take count).flatten <+: (replies.take count').flatten := by
    obtain ⟨rest, split⟩ := List.take_prefix_take_left (l := replies) le
    rw [← split, List.flatten_append]
    exact List.prefix_append _ _
  rcases Nat.le_total count count' with le | le
  · exact .inl (increasing le)
  · exact .inr (increasing le)

/-! ## What every return establishes -/

/-- A monitor that checks nothing and allows every reply. -/
def anyReplies (State Input : Type) : Monitor State Input where
  Phase := Unit
  check := fun _ _ => True
  advance := fun _ _ _ _ => True

theorem Meets.of_returns
    {post : Value → State → Prop}
    (meets : Meets (anyReplies State Input) (fun value _ => post value) ()
      behavior)
    (returns : Returns behavior inputs exchanges value final) :
    post value final := by
  induction returns with
  | finish value state =>
      exact meets_finish.mp meets
  | @await _ _ _ input _ _ _ _ inductionHypothesis =>
      exact inductionHypothesis ((meets_await.mp meets).2 input () trivial)

/-- What a turn keeps holds after every turn. -/
theorem Turns.keeps
    {turn : Program State Input Value}
    {goOn : Value}
    {replies : List (List Input)}
    {states : List State}
    {holds : State → Prop}
    (turns : Turns turn goOn state replies states)
    (kept : Keeps (anyReplies State Input) (fun _ => holds) turn)
    (before : holds state) :
    ∀ later ∈ states, holds later := by
  induction turns with
  | none =>
      exact List.forall_mem_nil _
  | turn once _ inductionHypothesis =>
      have after := (kept () _ before).of_returns once
      exact List.forall_mem_cons.mpr ⟨after, inductionHypothesis after⟩

/-! ## Looking for something -/

/--
Of some states one after the other, one is where something is found first, or it
is the last one.
-/
structure StopsAt
    (found : State → Prop)
    (states : List State)
    (index : Nat)
    (state : State) : Prop where
  here : states[index]? = some state
  first : ∀ earlier < index, ∀ before, states[earlier]? = some before →
    ¬ found before
  last : ¬ found state → index + 1 = states.length

theorem StopsAt.now
    {found : State → Prop}
    {states : List State}
    (hit : found state) :
    StopsAt found (state :: states) 0 state where
  here := rfl
  first := fun _ before => (Nat.not_lt_zero _ before).elim
  last := fun missed => (missed hit).elim

theorem StopsAt.only
    (found : State → Prop)
    (state : State) :
    StopsAt found [state] 0 state where
  here := rfl
  first := fun _ before => (Nat.not_lt_zero _ before).elim
  last := fun _ => rfl

theorem StopsAt.after
    {found : State → Prop}
    {states : List State}
    {index : Nat}
    (stops : StopsAt found states index final)
    (missed : ¬ found state) :
    StopsAt found (state :: states) (index + 1) final where
  here := by
    rw [List.getElem?_cons_succ]
    exact stops.here
  first := by
    intro earlier before passed isPassed
    cases earlier with
    | zero =>
        rw [List.getElem?_cons_zero, Option.some.injEq] at isPassed
        exact isPassed ▸ missed
    | succ earlier =>
        rw [List.getElem?_cons_succ] at isPassed
        exact stops.first earlier (Nat.lt_of_succ_lt_succ before) passed isPassed
  last := by
    intro notFound
    rw [List.length_cons, stops.last notFound]

/-- It matters only what is found in these states. -/
theorem StopsAt.congr
    {found found' : State → Prop}
    {states : List State}
    {index : Nat}
    (stops : StopsAt found states index state)
    (same : ∀ later ∈ states, found later ↔ found' later) :
    StopsAt found' states index state where
  here := stops.here
  first := by
    intro earlier passed before isBefore hit
    have member := List.mem_of_getElem? isBefore
    exact stops.first earlier passed before isBefore ((same before member).mpr hit)
  last := by
    intro missed
    have member := List.mem_of_getElem? stops.here
    exact stops.last fun hit => missed ((same state member).mp hit)

/-- Where nothing is found, the last state is the one. -/
theorem StopsAt.isLast
    {found : State → Prop}
    {states : List State}
    {index : Nat}
    (stops : StopsAt found states index state)
    (missed : ¬ found state) :
    states.getLast? = some state := by
  rw [List.getLast?_eq_getElem?, ← stops.last missed, Nat.add_sub_cancel]
  exact stops.here

theorem StopsAt.missed
    {found : State → Prop}
    {states : List State}
    {index : Nat}
    (stops : StopsAt found states index state)
    (missed : ¬ found state) :
    ∀ before ∈ states, ¬ found before := by
  intro before member
  obtain ⟨earlier, isBefore⟩ := List.mem_iff_getElem?.mp member
  have inside : earlier < states.length :=
    (List.getElem?_eq_some_iff.mp isBefore).1
  rcases Nat.lt_or_eq_of_le (Nat.le_of_lt_succ (stops.last missed ▸ inside))
    with passed | rfl
  · exact stops.first earlier passed before isBefore
  · rw [stops.here, Option.some.injEq] at isBefore
    exact isBefore ▸ missed

/-- There is only one such place. -/
theorem StopsAt.unique
    {found : State → Prop}
    {states : List State}
    {index index' : Nat}
    {state' : State}
    (stops : StopsAt found states index state)
    (stops' : StopsAt found states index' state') :
    index' = index ∧ state' = state := by
  have inside : index < states.length :=
    (List.getElem?_eq_some_iff.mp stops.here).1
  have inside' : index' < states.length :=
    (List.getElem?_eq_some_iff.mp stops'.here).1
  have same : index' = index := by
    rcases Nat.lt_trichotomy index' index with before | same | after
    · have missed := stops.first index' before state' stops'.here
      have ends := stops'.last missed
      omega
    · exact same
    · have missed := stops'.first index after state stops.here
      have ends := stops.last missed
      omega
  subst same
  have isState := stops.here
  rw [stops'.here, Option.some.injEq] at isState
  exact ⟨rfl, isState⟩

end

end Clocked
