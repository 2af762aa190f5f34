import Simbus.Clocked.Logic

/-!
# Safety of a client

An assertion that holds whenever a client waits for a reply, one that holds
when it fails, and one for the state in which it is done.  The replies are any
of those that are allowed, or any at all.
-/

namespace Clocked

section

variable {State Input Value Result : Type}
variable {allowed : Input → Prop}
variable {waits fails : State → Prop}

/-- What holds of a client that has come to an outcome. -/
def Outcome.Sound
    (waits fails : State → Prop)
    (post : Value → State → Prop) :
    Outcome State Input Value → Prop
  | .waiting state => waits state
  | .finished value state _ => post value state
  | .failed state => fails state

instance
    [DecidablePred waits]
    [DecidablePred fails]
    {post : Value → State → Prop}
    [∀ value, DecidablePred (post value)] :
    DecidablePred fun outcome : Outcome State Input Value =>
      outcome.Sound waits fails post
  | .waiting state => inferInstanceAs (Decidable (waits state))
  | .finished value state _ => inferInstanceAs (Decidable (post value state))
  | .failed state => inferInstanceAs (Decidable (fails state))

/-- After any allowed replies the client is in a sound state. -/
def Safe
    (allowed : Input → Prop)
    (waits fails : State → Prop)
    (post : Value → State → Prop)
    (behavior : Behavior State Input Value) : Prop :=
  ∀ inputs, (∀ input ∈ inputs, allowed input) →
    (behavior.run inputs).Sound waits fails post

variable {post : Value → State → Prop}
variable {state : State}

@[simp] theorem safe_finish
    {value : Value} :
    Safe allowed waits fails post
        (.finish value state : Behavior State Input Value) ↔
      post value state := by
  constructor
  · intro safe
    exact safe [] nofun
  · intro holds _ _
    exact holds

@[simp] theorem safe_fail :
    Safe allowed waits fails post
        (.fail state : Behavior State Input Value) ↔
      fails state := by
  constructor
  · intro safe
    exact safe [] nofun
  · intro holds _ _
    exact holds

@[simp] theorem safe_await
    {next : Input → Behavior State Input Value} :
    Safe allowed waits fails post (.await state next) ↔
      waits state ∧ ∀ input, allowed input →
        Safe allowed waits fails post (next input) := by
  constructor
  · intro safe
    refine ⟨safe [] nofun, fun input isAllowed inputs areAllowed => ?_⟩
    exact safe (input :: inputs)
      (List.forall_mem_cons.mpr ⟨isAllowed, areAllowed⟩)
  · rintro ⟨holds, later⟩ inputs areAllowed
    cases inputs with
    | nil =>
        exact holds
    | cons input inputs =>
        obtain ⟨isAllowed, areAllowed⟩ := List.forall_mem_cons.mp areAllowed
        exact later input isAllowed inputs areAllowed

/-- The replies that are not read yet are allowed. -/
private theorem allowed_rest
    {behavior : Behavior State Input Value}
    {inputs rest : List Input}
    {value : Value}
    {state : State}
    (finished : behavior.run inputs = .finished value state rest)
    (areAllowed : ∀ input ∈ inputs, allowed input) :
    ∀ input ∈ rest, allowed input := by
  obtain ⟨used, rfl, _⟩ := behavior.causal.finished finished
  exact fun input member =>
    areAllowed input (List.mem_append_right used member)

/-- Weaker assertions. -/
theorem Safe.weaken
    {behavior : Behavior State Input Value}
    {weakerWaits weakerFails : State → Prop}
    {weaker : Value → State → Prop}
    (safe : Safe allowed waits fails post behavior)
    (waiting : ∀ state, waits state → weakerWaits state)
    (failing : ∀ state, fails state → weakerFails state)
    (finished : ∀ value state, post value state → weaker value state) :
    Safe allowed weakerWaits weakerFails weaker behavior := by
  intro inputs areAllowed
  have reached := safe inputs areAllowed
  cases outcome : behavior.run inputs with
  | waiting state =>
      rw [outcome] at reached
      exact waiting state reached
  | failed state =>
      rw [outcome] at reached
      exact failing state reached
  | finished value state rest =>
      rw [outcome] at reached
      exact finished value state reached

theorem Safe.bind
    {middle : Value → State → Prop}
    {post : Result → State → Prop}
    {behavior : Behavior State Input Value}
    {next : Value → State → Behavior State Input Result}
    (first : Safe allowed waits fails middle behavior)
    (later : ∀ value state, middle value state →
      Safe allowed waits fails post (next value state)) :
    Safe allowed waits fails post (behavior.bind next) := by
  intro inputs areAllowed
  have reached := first inputs areAllowed
  simp only [Behavior.bind]
  cases outcome : behavior.run inputs with
  | waiting state =>
      rw [outcome] at reached
      exact reached
  | failed state =>
      rw [outcome] at reached
      exact reached
  | finished value state rest =>
      rw [outcome] at reached
      exact later value state reached rest (allowed_rest outcome areAllowed)

/-- Safety as a logic, in which the replies are not counted. -/
def safetyOn
    (allowed : Input → Prop)
    (waits fails : State → Prop) : Logic State Input where
  mayFail := fails
  ok := fun post _ behavior =>
    Safe allowed waits fails
      (fun value state => ∃ step, post value step state) behavior
  finish := fun reached => safe_finish.mpr ⟨_, reached⟩
  fail := safe_fail.mpr
  bind := fun first later =>
    first.bind fun value state ⟨step, reached⟩ =>
      later value step state reached

/-- Safety on any replies. -/
abbrev safety (waits fails : State → Prop) : Logic State Input :=
  safetyOn (fun _ => True) waits fails

/-! ## Loops -/

section Loop

variable {Local : Type}
variable {body : Local → Program State Input (Local ⊕ Result)}

/-- The result of a turn: the loop goes on, or it returns. -/
abbrev TurnPost
    (invariant : Local → Nat → State → Prop)
    (post : Assertion State Result) : Assertion State (Local ⊕ Result) :=
  Sum.elim invariant post

private theorem loopRun_sound
    {post : Assertion State Result}
    (invariant : Local → Nat → State → Prop)
    (spins : ∀ current step state, invariant current step state →
      fails state)
    (turn : ∀ current,
      (safetyOn allowed waits fails).Triple (invariant current) (body current)
        (TurnPost invariant post))
    (fuel : Nat)
    {current : Local}
    {step : Nat}
    {state : State}
    (before : invariant current step state)
    (inputs : List Input)
    (areAllowed : ∀ input ∈ inputs, allowed input) :
    (Program.loopRun body fuel current state inputs).Sound waits fails
      fun value state => ∃ step, post value step state := by
  induction fuel generalizing current step state inputs with
  | zero =>
      exact spins current step state before
  | succ fuel inductionHypothesis =>
      have reached := turn current step state before inputs areAllowed
      simp only [Program.loopRun]
      cases outcome : ((body current).start state).run inputs with
      | waiting state =>
          rw [outcome] at reached
          exact reached
      | failed state =>
          rw [outcome] at reached
          exact reached
      | finished result state rest =>
          rw [outcome] at reached
          obtain ⟨step, reached⟩ := reached
          cases result with
          | inr result =>
              exact ⟨step, reached⟩
          | inl next =>
              simp only
              split
              · exact inductionHypothesis reached rest
                  (allowed_rest outcome areAllowed)
              · exact spins next step state reached

/-- A loop keeps an invariant on its locals. -/
theorem safety_loop
    {post : Assertion State Result}
    (invariant : Local → Nat → State → Prop)
    (spins : ∀ current step state, invariant current step state →
      fails state)
    (turn : ∀ current,
      (safetyOn allowed waits fails).Triple (invariant current) (body current)
        (TurnPost invariant post))
    (current : Local) :
    (safetyOn allowed waits fails).Triple (invariant current)
      (Program.loop body current) post :=
  fun _ _ before inputs =>
    loopRun_sound invariant spins turn _ before inputs

/-- The rule for `while`. -/
theorem safety_whileDo
    {condition : State → Bool}
    {body : Program State Input Unit}
    (invariant : Nat → State → Prop)
    (spins : ∀ step state, invariant step state → fails state)
    (turn :
      (safetyOn allowed waits fails).Triple
        (fun step state => invariant step state ∧ condition state = true)
        body fun _ => invariant) :
    (safetyOn allowed waits fails).Triple invariant (Program.whileDo condition body)
      fun _ step state => invariant step state ∧ condition state = false := by
  refine safety_loop (fun _ => invariant) (fun _ => spins) (fun _ => ?_) ()
  intro step state before
  by_cases goesOn : condition state = true
  · simp only [Program.whileTurn, goesOn, ↓reduceIte]
    exact (safetyOn allowed waits fails).bind (turn step state ⟨before, goesOn⟩)
      fun _ _ _ still => (safetyOn allowed waits fails).finish still
  · simp only [Program.whileTurn, goesOn, Bool.false_eq_true, ↓reduceIte]
    exact (safetyOn allowed waits fails).finish ⟨before, by simpa using goesOn⟩

end Loop

end

end Clocked
