import Simbus.Clocked.Safety

/-!
# Clients whose server has ended

Once its server has ended, a client gets one and the same reply to everything it
sends.  What becomes of it then depends on where it waits: a loop that looks at
the result of its exchange returns, a loop that looks only at the inputs, which
do not change any more, goes round forever.
-/

namespace Clocked

section

variable {State Input Value Result : Type}

/-! ## Points of a run -/

/-- A client that is done leaves the replies that come later. -/
theorem Behavior.run_finished_append
    {behavior : Behavior State Input Value}
    {used : List Input}
    {value : Value}
    {state : State}
    (finished : behavior.run used = .finished value state [])
    (later : List Input) :
    behavior.run (used ++ later) = .finished value state later := by
  obtain ⟨all, split, stable⟩ := behavior.causal.finished finished
  rw [List.append_nil] at split
  subst split
  exact stable later

/-- The replies that a client has used when it is done. -/
theorem Behavior.exists_used
    {behavior : Behavior State Input Value}
    {inputs rest : List Input}
    {value : Value}
    {state : State}
    (finished : behavior.run inputs = .finished value state rest) :
    ∃ used, inputs = used ++ rest ∧
      behavior.run used = .finished value state [] := by
  obtain ⟨used, split, stable⟩ := behavior.causal.finished finished
  refine ⟨used, split, ?_⟩
  rw [← List.append_nil used]
  exact stable []

/-- A client that waits goes on as it would have with all its replies. -/
theorem Behavior.run_resumeAll
    {behavior : Behavior State Input Value}
    {inputs : List Input}
    {state : State}
    (waits : behavior.run inputs = .waiting state)
    (later : List Input) :
    (behavior.resumeAll inputs).run later = behavior.run (inputs ++ later) := by
  induction inputs generalizing behavior with
  | nil =>
      rfl
  | cons input inputs inductionHypothesis =>
      rcases behavior.cases_now with ⟨_, _, rfl⟩ | ⟨_, rfl⟩ | ⟨now, isAwait⟩
      · cases waits
      · cases waits
      · rw [isAwait] at waits ⊢
        exact inductionHypothesis waits

/-- A sequence whose first part waits. -/
theorem Behavior.resumeAll_bind_waiting
    {behavior : Behavior State Input Value}
    {inputs : List Input}
    {state : State}
    (waits : behavior.run inputs = .waiting state)
    (next : Value → State → Behavior State Input Result) :
    (behavior.bind next).resumeAll inputs =
      (behavior.resumeAll inputs).bind next := by
  induction inputs generalizing behavior with
  | nil =>
      rfl
  | cons input inputs inductionHypothesis =>
      rcases behavior.cases_now with ⟨_, _, rfl⟩ | ⟨_, rfl⟩ | ⟨now, isAwait⟩
      · cases waits
      · cases waits
      · rw [isAwait] at waits ⊢
        rw [await_bind]
        exact inductionHypothesis waits

variable {allowed : Input → Prop}
variable {point : Behavior State Input Value → Prop}
variable {post : Value → State → Prop}
variable {behavior : Behavior State Input Value}
variable {value : Value}
variable {state : State}
variable {inputs : List Input}

/-- What holds of the rest of a client where it waits, and of its results. -/
def AtPoint
    (point : Behavior State Input Value → Prop)
    (post : Value → State → Prop)
    (inputs : List Input)
    (behavior : Behavior State Input Value) : Prop :=
  match behavior.run inputs with
  | .waiting _ => point (behavior.resumeAll inputs)
  | .finished value state _ => post value state
  | .failed _ => True

/-- The same at every point of the runs on allowed replies. -/
def AtPoints
    (allowed : Input → Prop)
    (point : Behavior State Input Value → Prop)
    (post : Value → State → Prop)
    (behavior : Behavior State Input Value) : Prop :=
  ∀ inputs, (∀ input ∈ inputs, allowed input) →
    AtPoint point post inputs behavior

theorem AtPoint.waiting
    (atPoint : AtPoint point post inputs behavior)
    (waits : behavior.run inputs = .waiting state) :
    point (behavior.resumeAll inputs) := by
  rw [AtPoint, waits] at atPoint
  exact atPoint

theorem atPoint_finish
    (reached : post value state)
    (inputs : List Input) :
    AtPoint point post inputs (.finish value state) :=
  reached

theorem atPoints_finish
    (reached : post value state) :
    AtPoints allowed point post (.finish value state) :=
  fun inputs _ => atPoint_finish reached inputs

theorem atPoint_fail
    (state : State)
    (inputs : List Input) :
    AtPoint point post inputs (.fail state) :=
  trivial

theorem AtPoint.bind
    {pointNext : Behavior State Input Result → Prop}
    {middle : Value → State → Prop}
    {post : Result → State → Prop}
    {next : Value → State → Behavior State Input Result}
    (first : AtPoint point middle inputs behavior)
    (onward : ∀ rest, point rest → pointNext (rest.bind next))
    (later : ∀ used rest value state, inputs = used ++ rest →
      behavior.run used = .finished value state [] → middle value state →
      AtPoint pointNext post rest (next value state)) :
    AtPoint pointNext post inputs (behavior.bind next) := by
  cases outcome : behavior.run inputs with
  | waiting state =>
      have waits : (behavior.bind next).run inputs = .waiting state := by
        simp only [Behavior.bind, outcome]
      rw [AtPoint, waits, Behavior.resumeAll_bind_waiting outcome]
      exact onward _ (first.waiting outcome)
  | finished value state rest =>
      obtain ⟨used, rfl, finished⟩ := Behavior.exists_used outcome
      rw [AtPoint, outcome] at first
      have reached := later used rest value state rfl finished first
      have goesOn : (behavior.bind next).run (used ++ rest) =
          (next value state).run rest := by
        simp only [Behavior.bind, outcome]
      rw [AtPoint, goesOn, Behavior.resumeAll_append,
        Behavior.resumeAll_bind next finished]
      exact reached
  | failed state =>
      have fails : (behavior.bind next).run inputs = .failed state := by
        simp only [Behavior.bind, outcome]
      rw [AtPoint, fails]
      trivial

theorem AtPoints.bind
    {pointNext : Behavior State Input Result → Prop}
    {middle : Value → State → Prop}
    {post : Result → State → Prop}
    {next : Value → State → Behavior State Input Result}
    (first : AtPoints allowed point middle behavior)
    (onward : ∀ rest, point rest → pointNext (rest.bind next))
    (later : ∀ value state, middle value state →
      AtPoints allowed pointNext post (next value state)) :
    AtPoints allowed pointNext post (behavior.bind next) := by
  intro inputs areAllowed
  refine (first inputs areAllowed).bind onward ?_
  rintro used rest value state rfl _ reached
  exact later value state reached rest fun input member =>
    areAllowed input (List.mem_append_right used member)

theorem AtPoints.weaken
    {weakerPoint : Behavior State Input Value → Prop}
    {weaker : Value → State → Prop}
    (atPoints : AtPoints allowed point post behavior)
    (waiting : ∀ rest, point rest → weakerPoint rest)
    (finished : ∀ value state, post value state → weaker value state) :
    AtPoints allowed weakerPoint weaker behavior := by
  intro inputs areAllowed
  have reached := atPoints inputs areAllowed
  unfold AtPoint at reached ⊢
  cases outcome : behavior.run inputs with
  | waiting state =>
      rw [outcome] at reached
      exact waiting _ reached
  | finished value state rest =>
      rw [outcome] at reached
      exact finished value state reached
  | failed state =>
      trivial

/-! ## After the end -/

/-- On the last reply alone the client returns nothing but this, if at all. -/
def Deserted
    (last : Input)
    (leaves : Value → State → Prop)
    (behavior : Behavior State Input Value) : Prop :=
  Safe (· = last) (fun _ => True) (fun _ => True) leaves behavior

/-- The client never returns on the last reply alone. -/
abbrev Lost
    (last : Input)
    (behavior : Behavior State Input Value) : Prop :=
  Deserted last (fun _ _ => False) behavior

/-- The client returns after the first of these replies. -/
def Heeds
    (last : Input)
    (leaves : Value → State → Prop)
    (behavior : Behavior State Input Value) : Prop :=
  ∃ value state, behavior.run [last] = .finished value state [] ∧
    leaves value state

/-- After some replies, and some more of the last one, the client has returned. -/
def StopsAfter
    (inputs : List Input)
    (last : Input)
    (behavior : Behavior State Input Value) : Prop :=
  ∃ count value state rest,
    behavior.run (inputs ++ List.replicate count last) =
      .finished value state rest

variable {last : Input}
variable {leaves : Value → State → Prop}

theorem Deserted.bind
    {leavesNext : Result → State → Prop}
    {next : Value → State → Behavior State Input Result}
    (first : Deserted last leaves behavior)
    (later : ∀ value state, leaves value state →
      Deserted last leavesNext (next value state)) :
    Deserted last leavesNext (behavior.bind next) :=
  Safe.bind first later

/-- A client that is as it should be at every point is so at the first one. -/
theorem Deserted.of_atPoints
    (atPoints : AtPoints allowed (Deserted last leaves) post behavior)
    (implies : ∀ value state, post value state → leaves value state) :
    Deserted last leaves behavior := by
  have now := atPoints [] nofun
  rcases behavior.cases_now with ⟨value, state, rfl⟩ | ⟨state, rfl⟩ |
    ⟨state, isAwait⟩
  · exact safe_finish.mpr (implies value state now)
  · exact safe_fail.mpr trivial
  · rw [isAwait] at now ⊢
    exact now

/-- Whoever never returns does not go on either. -/
theorem Lost.bind
    (lost : Lost last behavior)
    (next : Value → State → Behavior State Input Result) :
    Lost last (behavior.bind next) :=
  Deserted.bind lost fun _ _ => False.elim

theorem Lost.not_stopsAfter
    (lost : Lost last (behavior.resumeAll inputs))
    (waits : behavior.run inputs = .waiting state) :
    ¬ StopsAfter inputs last behavior := by
  rintro ⟨count, value, final, rest, finished⟩
  have reached := lost (List.replicate count last) fun _ member =>
    List.eq_of_mem_replicate member
  rw [Behavior.run_resumeAll waits, finished] at reached
  exact reached

/-- Whoever waits and returns at once returns nothing else later. -/
theorem Heeds.deserted
    (heeds : Heeds last leaves behavior)
    (waits : behavior.run [] = .waiting state) :
    Deserted last leaves behavior := by
  obtain ⟨value, final, finished, reached⟩ := heeds
  intro inputs areLast
  cases inputs with
  | nil =>
      rw [waits]
      trivial
  | cons input inputs =>
      obtain rfl : input = last := areLast input List.mem_cons_self
      have same := Behavior.run_finished_append finished inputs
      rw [List.singleton_append] at same
      rw [same]
      exact reached

/-- What follows returns at once as well. -/
theorem Heeds.bind
    {leavesNext : Result → State → Prop}
    {next : Value → State → Behavior State Input Result}
    (heeds : Heeds last leaves behavior)
    (atOnce : ∀ value state, leaves value state →
      ∃ result final, next value state = .finish result final ∧
        leavesNext result final) :
    Heeds last leavesNext (behavior.bind next) := by
  obtain ⟨value, state, finished, reached⟩ := heeds
  obtain ⟨result, final, isFinish, reachedNext⟩ := atOnce value state reached
  refine ⟨result, final, ?_, reachedNext⟩
  simp only [Behavior.bind, finished, isFinish, Behavior.run_finish]

/-! ## Programs that never return after the end -/

/-- Never returning, wherever a client waits, as a logic. -/
def deaf (allowed : Input → Prop) (last : Input) : Logic State Input where
  mayFail := fun _ => True
  ok := fun post _ behavior =>
    AtPoints allowed (Lost last)
      (fun value state => ∃ step, post value step state) behavior
  finish := fun reached _ _ => ⟨_, reached⟩
  fail := fun _ _ _ => trivial
  bind := fun first later =>
    first.bind (fun _ lost => lost.bind _) fun value state ⟨step, reached⟩ =>
      later value step state reached

section Loop

variable {Local : Type}
variable {body : Local → Program State Input (Local ⊕ Result)}

private theorem atPoint_loop
    {post : Assertion State Result}
    (invariant : Local → Nat → State → Prop)
    (turn : ∀ current, (deaf allowed last).Triple (invariant current)
      (body current) (TurnPost invariant post))
    (bound : Nat)
    {current : Local}
    {step : Nat}
    (before : invariant current step state)
    (areAllowed : ∀ input ∈ inputs, allowed input)
    (bounded : inputs.length < bound) :
    AtPoint (Lost last) (fun value state => ∃ step, post value step state)
      inputs ((Program.loop body current).start state) := by
  induction bound generalizing current step state inputs with
  | zero =>
      exact (Nat.not_lt_zero _ bounded).elim
  | succ bound inductionHypothesis =>
      by_cases spins : ∃ next final rest,
          ((body current).start state).run [] =
            .finished (.inl next) final rest
      · obtain ⟨next, final, rest, spun⟩ := spins
        rw [Program.start_loop_spin (Behavior.eq_finish spun)]
        exact atPoint_fail final inputs
      · simp only [not_exists] at spins
        rw [Program.start_loop spins]
        refine (turn current step state before inputs areAllowed).bind
          (fun _ lost => lost.bind _) ?_
        rintro used rest outcome middle rfl finished ⟨step, reached⟩
        cases outcome with
        | inr result =>
            exact atPoint_finish ⟨step, reached⟩ rest
        | inl next =>
            have exchanged : used ≠ [] := by
              rintro rfl
              exact spins next middle [] finished
            have positive := List.length_pos_iff.mpr exchanged
            rw [List.length_append] at bounded
            refine inductionHypothesis reached (fun input member => ?_)
              (by omega)
            exact areAllowed input (List.mem_append_right used member)

/-- A loop keeps an invariant on its locals. -/
theorem deaf_loop
    {post : Assertion State Result}
    (invariant : Local → Nat → State → Prop)
    (turn : ∀ current, (deaf allowed last).Triple (invariant current)
      (body current) (TurnPost invariant post))
    (current : Local) :
    (deaf allowed last).Triple (invariant current)
      (Program.loop body current) post :=
  fun _ _ before _ areAllowed =>
    atPoint_loop invariant turn _ before areAllowed (Nat.lt_succ_self _)

end Loop

section Deaf

variable {holds : State → Prop}

/-- Wherever the program waits it never returns after the last reply. -/
abbrev Deaf
    (allowed : Input → Prop)
    (last : Input)
    (holds : State → Prop)
    (program : Program State Input Value) : Prop :=
  (deaf allowed last).Keeps (fun _ => holds) program

theorem Deaf.pure (value : Value) :
    Deaf allowed last holds
      (Pure.pure value : Program State Input Value) :=
  Logic.Keeps.pure value

theorem Deaf.bind
    {program : Program State Input Value}
    {next : Value → Program State Input Result}
    (first : Deaf allowed last holds program)
    (later : ∀ value, Deaf allowed last holds (next value)) :
    Deaf allowed last holds (program >>= next) :=
  Logic.Keeps.bind first later

theorem Deaf.getState
    {next : State → Program State Input Value}
    (reads : ∀ state, Deaf allowed last holds (next state)) :
    Deaf allowed last holds (Program.getState >>= next) :=
  Logic.Keeps.getState reads

theorem Deaf.ite
    {condition : Prop}
    [Decidable condition]
    {yes no : Program State Input Value}
    (first : Deaf allowed last holds yes)
    (second : Deaf allowed last holds no) :
    Deaf allowed last holds (if condition then yes else no) :=
  Logic.Keeps.ite first second

theorem Deaf.modifyState
    {change : State → State}
    (same : ∀ state, holds state → holds (change state)) :
    Deaf allowed last holds
      (Program.modifyState change : Program State Input Unit) :=
  Logic.Triple.modifyState fun _ => same

theorem Deaf.assert (condition : State → Bool) :
    Deaf allowed last holds
      (Program.assert condition : Program State Input Unit) := by
  intro step state before
  rw [Program.start_assert]
  split
  · exact (deaf allowed last).finish before
  · exact (deaf allowed last).fail trivial

theorem Deaf.abort :
    Deaf allowed last holds
      (Program.abort : Program State Input Value) :=
  fun _ _ _ => (deaf allowed last).fail trivial

theorem Deaf.loop
    {Local : Type}
    {body : Local → Program State Input (Local ⊕ Result)}
    (keeps : ∀ current, Deaf allowed last holds (body current))
    (current : Local) :
    Deaf allowed last holds (Program.loop body current) := by
  refine deaf_loop (fun _ _ => holds) (fun current => ?_) current
  refine Logic.Triple.weaken (keeps current) (fun _ _ before => before) ?_
  rintro (next | result) step state reached
  · exact reached
  · exact reached

theorem Deaf.whileDo
    {condition : State → Bool}
    {body : Program State Input Unit}
    (keeps : Deaf allowed last holds body) :
    Deaf allowed last holds (Program.whileDo condition body) := by
  refine Deaf.loop (fun _ step state before => ?_) ()
  by_cases goesOn : condition state = true
  · simp only [Program.whileTurn, goesOn, ↓reduceIte]
    exact (deaf allowed last).bind (keeps step state before)
      fun _ _ _ reached => (deaf allowed last).finish reached
  · simp only [Program.whileTurn, goesOn, Bool.false_eq_true, ↓reduceIte]
    exact (deaf allowed last).finish before

/-- A program that never returns after the end, in what is left of it. -/
theorem Deaf.lost
    {program : Program State Input Value}
    (isDeaf : Deaf allowed last holds program)
    {state now : State}
    (before : holds state)
    (areAllowed : ∀ input ∈ inputs, allowed input)
    (waits : (program.start state).run inputs = .waiting now) :
    Lost last ((program.start state).resumeAll inputs) :=
  (isDeaf 0 state before inputs areAllowed).waiting waits

end Deaf

/-! ## Loops that wait for an input -/

section Poll

/--
What a client does with one reply: it takes an allowed one or fails, and the last
one leaves its state as it is.
-/
structure TakesReply
    (allowed : Input → Prop)
    (last : Input)
    (holds : State → Prop)
    (code : Int)
    (command : Program State Input Int) : Prop where
  sends : ∀ state, (command.start state).run [] = .waiting state
  ended : ∀ state, (command.start state).resume last = .finish code state
  taken : ∀ state, holds state → ∀ input, allowed input →
    (∃ next, (command.start state).resume input = .finish 0 next ∧
      holds next) ∨
    ∃ next, (command.start state).resume input = .fail next

variable {holds : State → Prop}
variable {code : Int}
variable {command : Program State Input Int}

theorem TakesReply.start
    (takes : TakesReply allowed last holds code command)
    (state : State) :
    command.start state =
      .await state (command.start state).resume :=
  Behavior.eq_await (takes.sends state)

/-! ### Loops that throw the result away -/

/-- `while (condition) command();`. -/
abbrev poll
    (condition : State → Bool)
    (command : Program State Input Int) : Program State Input Unit :=
  Program.whileDo condition do
    let _ ← command

variable {condition : State → Bool}

theorem poll_start
    (takes : TakesReply allowed last holds code command)
    (goesOn : condition state = true) :
    (poll condition command).start state =
      .await state fun input =>
        ((command.start state).resume input).bind
          fun _ => (poll condition command).start := by
  have turn : (do let _ ← command : Program State Input Unit).start state =
      .await state fun input =>
        ((command.start state).resume input).bind
          fun _ => .finish () := by
    rw [Program.start_bind, takes.start state, Behavior.await_bind]
    rfl
  have exchanges (final : State) (rest : List Input) :
      ((do let _ ← command : Program State Input Unit).start state).run [] ≠
        .finished () final rest := by
    rw [turn]
    nofun
  rw [poll, Program.start_whileDo_true goesOn exchanges, turn,
    Behavior.await_bind]
  congr 1
  funext input
  rw [Behavior.bind_assoc]
  rfl

/-- The loop goes round on the last reply. -/
theorem poll_lost
    (takes : TakesReply allowed last holds code command)
    (goesOn : condition state = true) :
    Lost last ((poll condition command).start state) := by
  intro inputs areLast
  induction inputs with
  | nil =>
      rw [poll_start takes goesOn]
      trivial
  | cons input inputs inductionHypothesis =>
      obtain ⟨rfl, areLast⟩ := List.forall_mem_cons.mp areLast
      rw [poll_start takes goesOn]
      simp only [Behavior.await, takes.ended, Behavior.finish_bind]
      exact inductionHypothesis areLast

theorem poll_keeps
    (takes : TakesReply allowed last holds code command) :
    Deaf allowed last holds (poll condition command) := by
  intro step state before inputs areAllowed
  induction inputs generalizing state with
  | nil =>
      cases goesOn : condition state with
      | true =>
          have lost := poll_lost takes goesOn
          rw [poll_start takes goesOn] at lost ⊢
          exact lost
      | false =>
          rw [poll, Program.start_whileDo_false goesOn]
          exact ⟨step, before⟩
  | cons input inputs inductionHypothesis =>
      cases goesOn : condition state with
      | true =>
          obtain ⟨isAllowed, areAllowed⟩ := List.forall_mem_cons.mp areAllowed
          rw [poll_start takes goesOn]
          change AtPoint _ _ inputs
            (((command.start state).resume input).bind _)
          rcases takes.taken state before input isAllowed with
            ⟨next, took, after⟩ | ⟨next, failed⟩
          · rw [took, Behavior.finish_bind]
            exact inductionHypothesis next after areAllowed
          · rw [failed, Behavior.fail_bind]
            trivial
      | false =>
          rw [poll, Program.start_whileDo_false goesOn]
          exact ⟨step, before⟩

/-! ### Loops that look at the result -/

/-- One turn of a loop that looks at the result of its exchange. -/
def testedTurn
    (condition : State → Prop)
    [DecidablePred condition]
    (command : Program State Input Int)
    (rc : Int) : Program State Input (Int ⊕ Int) := do
  let state ← Program.getState
  if condition state ∧ 0 ≤ rc then
    let rc ← command
    return .inl rc
  else
    return .inr rc

/-- `while (condition && rc >= 0) rc = command();`. -/
def testedPoll
    (condition : State → Prop)
    [DecidablePred condition]
    (command : Program State Input Int)
    (rc : Int) : Program State Input Int :=
  Program.loop (testedTurn condition command) rc

variable {tested : State → Prop}
variable [DecidablePred tested]
variable {rc : Int}

theorem testedPoll_start_done
    (done : ¬ (tested state ∧ 0 ≤ rc)) :
    (testedPoll tested command rc).start state = .finish rc state := by
  have turn : (testedTurn tested command rc).start state =
      .finish (.inr rc) state := by
    rw [testedTurn, Program.start_bind, Program.start_getState,
      Behavior.finish_bind, if_neg done]
    rfl
  rw [testedPoll, Program.start_loop (by simp [turn]), turn]
  rfl

theorem testedPoll_start_goesOn
    (takes : TakesReply allowed last holds code command)
    (goesOn : tested state ∧ 0 ≤ rc) :
    (testedPoll tested command rc).start state =
      .await state fun input =>
        ((command.start state).resume input).bind
          fun rc => (testedPoll tested command rc).start := by
  have turn : (testedTurn tested command rc).start state =
      .await state fun input =>
        ((command.start state).resume input).bind
          fun rc => .finish (.inl rc) := by
    rw [testedTurn, Program.start_bind, Program.start_getState,
      Behavior.finish_bind, if_pos goesOn, Program.start_bind,
      takes.start state, Behavior.await_bind]
    rfl
  rw [testedPoll, Program.start_loop (by simp [turn]), turn,
    Behavior.await_bind]
  congr 1
  funext input
  rw [Behavior.bind_assoc]
  rfl

/-- The loop stops at the first last reply, without a change. -/
theorem testedPoll_heeds
    (takes : TakesReply allowed last holds code command)
    (negative : code < 0)
    (before : holds state)
    (notYet : 0 ≤ rc) :
    AtPoints allowed (Heeds last fun value final => value = code ∧ holds final)
      (fun value final => 0 ≤ value ∧ holds final ∧ ¬ tested final)
      ((testedPoll tested command rc).start state) := by
  intro inputs areAllowed
  induction inputs generalizing state rc with
  | nil =>
      by_cases goesOn : tested state
      · rw [testedPoll_start_goesOn takes ⟨goesOn, notYet⟩]
        refine ⟨code, state, ?_, rfl, before⟩
        have stops : ¬ (tested state ∧ 0 ≤ code) := by omega
        simp only [Behavior.resumeAll, List.foldl_nil, Behavior.await,
          takes.ended, Behavior.finish_bind, testedPoll_start_done stops,
          Behavior.run_finish]
      · rw [testedPoll_start_done fun both => goesOn both.1]
        exact ⟨notYet, before, goesOn⟩
  | cons input inputs inductionHypothesis =>
      by_cases goesOn : tested state
      · obtain ⟨isAllowed, areAllowed⟩ := List.forall_mem_cons.mp areAllowed
        rw [testedPoll_start_goesOn takes ⟨goesOn, notYet⟩]
        change AtPoint _ _ inputs (((command.start state).resume input).bind _)
        rcases takes.taken state before input isAllowed with
          ⟨next, took, after⟩ | ⟨next, failed⟩
        · rw [took, Behavior.finish_bind]
          exact inductionHypothesis after (Int.le_refl 0) areAllowed
        · rw [failed, Behavior.fail_bind]
          trivial
      · rw [testedPoll_start_done fun both => goesOn both.1]
        exact ⟨notYet, before, goesOn⟩

end Poll

end

end Clocked
