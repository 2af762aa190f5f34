import Simbus.Clocked.Safety
import Mathlib

/-!
# Progress of a client

What a client comes to on one unending stream of replies.  The steps count the
replies, so that what holds of the stream from some step on can be used there.
-/

namespace Clocked

section

variable {State Input Value Result : Type}

/-- What is left of a client, and the number of replies so far. -/
abbrev Goal (State Input Value : Type) : Type :=
  Nat → Behavior State Input Value → Prop

/-- The replies of the stream lead a client to a goal. -/
inductive Leads
    (stream : Nat → Input)
    (goal : Goal State Input Value) :
    Nat → Behavior State Input Value → Prop
  | now
      {step : Nat}
      {behavior : Behavior State Input Value}
      (reached : goal step behavior) :
      Leads stream goal step behavior
  | later
      {step : Nat}
      {behavior : Behavior State Input Value}
      {state : State}
      (waits : behavior.run [] = .waiting state)
      (rest : Leads stream goal (step + 1) (behavior.resume (stream step))) :
      Leads stream goal step behavior

variable {stream : Nat → Input}
variable {goal : Goal State Input Value}
variable {step : Nat}
variable {behavior : Behavior State Input Value}

theorem Leads.await
    {state : State}
    {next : Input → Behavior State Input Value}
    (rest : Leads stream goal (step + 1) (next (stream step))) :
    Leads stream goal step (.await state next) :=
  Leads.later (Behavior.run_await_nil state next) rest

/-- The first part of a sequence leads on to the second. -/
theorem Leads.bind
    {next : Value → State → Behavior State Input Result}
    {further : Goal State Input Result}
    (leads : Leads stream goal step behavior)
    (onward : ∀ step behavior, goal step behavior →
      Leads stream further step (behavior.bind next)) :
    Leads stream further step (behavior.bind next) := by
  induction leads with
  | now reached =>
      exact onward _ _ reached
  | later waits _ inductionHypothesis =>
      rw [Behavior.eq_await waits, Behavior.await_bind]
      exact .await inductionHypothesis

/-- A stretch of the stream. -/
def stretch (stream : Nat → Input) (step count : Nat) : List Input :=
  (List.range count).map fun offset => stream (step + offset)

@[simp] theorem stretch_zero (step : Nat) :
    stretch stream step 0 = [] :=
  rfl

theorem stretch_succ (step count : Nat) :
    stretch stream step (count + 1) =
      stream step :: stretch stream (step + 1) count := by
  rw [stretch, stretch, List.range_succ_eq_map, List.map_cons, List.map_map]
  congr 1
  apply List.map_congr_left
  intro offset _
  rw [Function.comp_apply]
  congr 1
  omega

theorem stretch_add (step count later : Nat) :
    stretch stream step (count + later) =
      stretch stream step count ++ stretch stream (step + count) later := by
  rw [stretch, stretch, stretch, List.range_add, List.map_append, List.map_map]
  congr 1
  apply List.map_congr_left
  intro offset _
  rw [Function.comp_apply, Nat.add_assoc]

theorem length_stretch (stream : Nat → Input) (step count : Nat) :
    (stretch stream step count).length = count := by
  rw [stretch, List.length_map, List.length_range]

/-- A goal that is reached is reached after some stretch of the stream. -/
theorem Leads.run
    (leads : Leads stream goal step behavior) :
    ∃ count behavior', goal (step + count) behavior' ∧
      ∀ rest, behavior.run (stretch stream step count ++ rest) =
        behavior'.run rest := by
  induction leads with
  | now reached =>
      exact ⟨0, _, reached, fun _ => rfl⟩
  | @later step behavior state waits _ inductionHypothesis =>
      obtain ⟨count, behavior', reached, same⟩ := inductionHypothesis
      refine ⟨count + 1, behavior', ?_, ?_⟩
      · rw [Nat.add_right_comm] at reached
        exact reached
      · intro rest
        rw [stretch_succ, List.cons_append, Behavior.eq_await waits]
        exact same rest

/-! ## Ends -/

/--
A client that is done or has failed.  It need not get there if it waits in a
state in which all that is wanted has happened.
-/
inductive Ended
    (fails escape : State → Prop)
    (post : Assertion State Value) : Goal State Input Value
  | finished
      {value : Value}
      {step : Nat}
      {state : State}
      (holds : post value step state) :
      Ended fails escape post step (.finish value state)
  | failed
      {step : Nat}
      {state : State}
      (holds : fails state) :
      Ended fails escape post step (.fail state)
  | escaped
      {step : Nat}
      {behavior : Behavior State Input Value}
      {state : State}
      (waits : behavior.run [] = .waiting state)
      (holds : escape state) :
      Ended fails escape post step behavior

variable {fails escape : State → Prop}
variable {post : Assertion State Value}
variable {state : State}

/-- A sequence waits where its first part does. -/
theorem bind_waits
    (waits : behavior.run [] = .waiting state)
    (next : Value → State → Behavior State Input Result) :
    (behavior.bind next).run [] = .waiting state := by
  simp only [Behavior.bind, waits]

/-- A sequence goes on with its second part where the first one is done. -/
theorem bind_finished
    {inputs : List Input}
    {value : Value}
    (finished : behavior.run inputs = .finished value state [])
    (next : Value → State → Behavior State Input Result)
    (later : List Input) :
    (behavior.bind next).run (inputs ++ later) =
      (next value state).run later := by
  obtain ⟨used, all, stable⟩ := behavior.causal.finished finished
  rw [List.append_nil] at all
  subst all
  simp only [Behavior.bind, stable later]

/-- Progress as a logic. -/
def progress
    (stream : Nat → Input)
    (fails escape : State → Prop) : Logic State Input where
  mayFail := fails
  ok := fun post step behavior =>
    Leads stream (Ended fails escape post) step behavior
  finish := fun holds => .now (.finished holds)
  fail := fun holds => .now (.failed holds)
  bind := fun first later => first.bind fun step behavior reached => by
    cases reached with
    | finished holds =>
        exact later _ _ _ holds
    | failed holds =>
        exact .now (.failed holds)
    | @escaped _ _ state waits holds =>
        exact .now (.escaped (bind_waits waits _) holds)

/-- What a client that is done at once has come to. -/
theorem Leads.of_finish
    {value : Value}
    (leads : Leads stream (Ended fails escape post) step
      (.finish value state)) :
    post value step state := by
  generalize isFinish : Behavior.finish value state = behavior at leads
  cases leads with
  | now reached =>
      cases reached with
      | finished holds =>
          have same := congrArg (fun behavior => behavior.run []) isFinish
          simp only [Behavior.run_finish, Outcome.finished.injEq] at same
          obtain ⟨rfl, rfl, _⟩ := same
          exact holds
      | failed holds =>
          have same := congrArg (fun behavior => behavior.run []) isFinish
          cases same
      | escaped waits holds =>
          subst isFinish
          cases waits
  | later waits rest =>
      subst isFinish
      cases waits

/-- A client that must go on is at a place where it waits. -/
theorem Leads.escape_now
    {allowed : Input → Prop}
    {waits : State → Prop}
    {anyFails : State → Prop}
    {anyPost : Value → State → Prop}
    {further : Assertion State Value}
    (leads : Leads stream (Ended fails escape post) step behavior)
    (safe : Safe allowed waits anyFails anyPost behavior)
    (goesOn : ∀ value state, ¬ post value step state) :
    Leads stream (Ended fails waits further) step behavior := by
  have sound := safe [] nofun
  cases leads with
  | now reached =>
      cases reached with
      | finished holds =>
          exact (goesOn _ _ holds).elim
      | failed holds =>
          exact .now (.failed holds)
      | escaped isWaiting _ =>
          rw [isWaiting] at sound
          exact .now (.escaped isWaiting sound)
  | later isWaiting _ =>
      rw [isWaiting] at sound
      exact .now (.escaped isWaiting sound)

section Loop

variable {Local : Type}
variable {body : Local → Program State Input (Local ⊕ Result)}

/--
A loop ends if every turn exchanges a message and has a smaller variant than
before, or ends the loop.
-/
theorem progress_loopVariant
    {post : Assertion State Result}
    {Measure : Type}
    {smaller : Measure → Measure → Prop}
    (wellFounded : WellFounded smaller)
    (invariant : Measure → Local → Nat → State → Prop)
    (turn : ∀ size current step state, invariant size current step state →
      (progress stream fails escape).ok
        (Sum.elim
          (fun next step' state' => step < step' ∧
            ∃ size', smaller size' size ∧ invariant size' next step' state')
          post)
        step ((body current).start state))
    (size : Measure)
    (current : Local) :
    (progress stream fails escape).Triple (invariant size current)
      (Program.loop body current) post := by
  intro step state before
  induction size using wellFounded.induction
      generalizing current step state with
  | _ size inductionHypothesis =>
      have first := turn size current step state before
      have exchanges : ∀ next final rest,
          ((body current).start state).run [] ≠
            .finished (.inl next) final rest := by
        intro next final rest finished
        rw [Behavior.eq_finish finished] at first
        exact Nat.lt_irrefl _ first.of_finish.1
      rw [Program.start_loop exchanges]
      refine (progress stream fails escape).bind first ?_
      intro outcome step' state' reached
      cases outcome with
      | inr result =>
          exact .now (.finished reached)
      | inl next =>
          obtain ⟨_, size', decreases, after⟩ := reached
          exact inductionHypothesis size' decreases next step' state' after

/-- The rule with a measure of the locals and the step. -/
theorem progress_loop
    {post : Assertion State Result}
    {Measure : Type}
    {smaller : Measure → Measure → Prop}
    (wellFounded : WellFounded smaller)
    (invariant : Local → Nat → State → Prop)
    (measure : Local → Nat → Measure)
    (turn : ∀ current step state, invariant current step state →
      (progress stream fails escape).ok
        (Sum.elim
          (fun next step' state' =>
            invariant next step' state' ∧ step < step' ∧
              smaller (measure next step') (measure current step))
          post)
        step ((body current).start state))
    (current : Local) :
    (progress stream fails escape).Triple (invariant current)
      (Program.loop body current) post := by
  intro step state before
  refine progress_loopVariant wellFounded
    (fun size current step state =>
      invariant current step state ∧ measure current step = size)
    ?_ (measure current step) current step state ⟨before, rfl⟩
  rintro _ current step state ⟨before, rfl⟩
  refine Logic.mono (turn current step state before) ?_
  intro outcome step' state' reached
  cases outcome with
  | inr result =>
      exact reached
  | inl next =>
      obtain ⟨after, advanced, decreases⟩ := reached
      exact ⟨advanced, _, decreases, after, rfl⟩

section While

variable {condition : State → Bool}
variable {body : Program State Input Unit}

/-- One turn of a `while` loop, and then the others. -/
theorem progress_whileStep
    {post : Assertion State Unit}
    {step : Nat}
    {state : State}
    (goesOn : condition state = true)
    (turn : (progress stream fails escape).ok
      (fun _ step' state' => step < step' ∧
        (progress stream fails escape).ok post step'
          ((Program.whileDo condition body).start state'))
      step (body.start state)) :
    (progress stream fails escape).ok post step
      ((Program.whileDo condition body).start state) := by
  have exchanges : ∀ final rest,
      (body.start state).run [] ≠ .finished () final rest := by
    intro final rest finished
    rw [Behavior.eq_finish finished] at turn
    exact Nat.lt_irrefl _ turn.of_finish.1
  rw [Program.start_whileDo_true goesOn exchanges]
  exact (progress stream fails escape).bind turn
    fun _ _ _ reached => reached.2

/-- The rule for `while` with a variant. -/
theorem progress_whileVariant
    {Measure : Type}
    {smaller : Measure → Measure → Prop}
    (wellFounded : WellFounded smaller)
    (invariant : Measure → Nat → State → Prop)
    (turn : ∀ size step state, invariant size step state →
      condition state = true →
      (progress stream fails escape).ok
        (fun _ step' state' => step < step' ∧
          ∃ size', smaller size' size ∧ invariant size' step' state')
        step (body.start state))
    (size : Measure) :
    (progress stream fails escape).Triple (invariant size)
      (Program.whileDo condition body)
      fun _ step state =>
        (∃ size, invariant size step state) ∧ condition state = false := by
  refine progress_loopVariant wellFounded
    (fun size _ => invariant size) ?_ size ()
  intro size _ step state before
  by_cases goesOn : condition state = true
  · simp only [Program.whileTurn, goesOn, ↓reduceIte]
    exact (progress stream fails escape).bind
      (turn size step state before goesOn)
      fun _ _ _ still => .now (.finished still)
  · simp only [Program.whileTurn, goesOn, Bool.false_eq_true, ↓reduceIte]
    exact .now (.finished ⟨⟨size, before⟩, by simpa using goesOn⟩)

/-- The rule with a measure of the step. -/
theorem progress_whileDo
    (invariant : Nat → State → Prop)
    (measure : Nat → Nat)
    (turn : ∀ step state, invariant step state → condition state = true →
      (progress stream fails escape).ok
        (fun _ step' state' =>
          invariant step' state' ∧ step < step' ∧
            measure step' < measure step)
        step (body.start state)) :
    (progress stream fails escape).Triple invariant
      (Program.whileDo condition body)
      fun _ step state => invariant step state ∧ condition state = false := by
  intro step state before
  refine Logic.mono (progress_whileVariant Nat.lt_wfRel.wf
    (fun size step state => invariant step state ∧ measure step = size)
    ?_ (measure step) step state ⟨before, rfl⟩) ?_
  · rintro _ step state ⟨before, rfl⟩ goesOn
    refine Logic.mono (turn step state before goesOn) ?_
    rintro _ step' state' ⟨after, advanced, decreases⟩
    exact ⟨advanced, _, decreases, after, rfl⟩
  · rintro _ step state ⟨⟨_, after, _⟩, ends⟩
    exact ⟨after, ends⟩

end While

end Loop

/-- What a client comes to after enough of the stream. -/
theorem Leads.outcome
    (leads : Leads stream (Ended fails escape post) step behavior) :
    ∃ count,
      match behavior.run (stretch stream step count) with
      | .waiting state => escape state
      | .finished value state _ => post value (step + count) state
      | .failed state => fails state := by
  obtain ⟨count, behavior', reached, same⟩ := leads.run
  refine ⟨count, ?_⟩
  have now := same []
  rw [List.append_nil] at now
  rw [now]
  generalize step + count = after at reached
  cases reached with
  | finished holds =>
      exact holds
  | failed holds =>
      exact holds
  | escaped waits holds =>
      rw [waits]
      exact holds

/-- What holds of a client that gets to its end on a stream that is allowed. -/
theorem Leads.finishes
    {allowed : Input → Prop}
    {waits anyFails : State → Prop}
    {anyPost : Value → State → Prop}
    (leads : Leads stream (Ended fails escape post) step behavior)
    (safe : Safe allowed waits anyFails anyPost behavior)
    (areAllowed : ∀ step, allowed (stream step))
    (noEscape : ∀ state, waits state → ¬ escape state)
    (noFailure : ∀ state, anyFails state → ¬ fails state) :
    ∃ count value state,
      behavior.run (stretch stream step count) = .finished value state [] ∧
        post value (step + count) state ∧ anyPost value state := by
  obtain ⟨count, behavior', reached, same⟩ := leads.run
  have now := same []
  rw [List.append_nil] at now
  have sound := safe (stretch stream step count) (by
    intro input member
    obtain ⟨offset, _, rfl⟩ := List.mem_map.mp member
    exact areAllowed _)
  rw [now] at sound
  refine ⟨count, ?_⟩
  rw [now]
  generalize step + count = after at reached ⊢
  cases reached with
  | @finished value _ state holds =>
      exact ⟨value, state, rfl, holds, sound⟩
  | failed holds =>
      exact (noFailure _ sound holds).elim
  | escaped isWaiting holds =>
      rw [isWaiting] at sound
      exact (noEscape _ sound holds).elim

/-- What holds of a client that neither fails nor escapes. -/
theorem Leads.ends
    (leads : Leads stream
      (Ended (fun _ => False) (fun _ => False) post) step behavior) :
    ∃ count value state,
      behavior.run (stretch stream step count) = .finished value state [] ∧
        post value (step + count) state := by
  have safe : Safe (fun _ => True) (fun _ => True) (fun _ => True)
      (fun _ _ => True) behavior := by
    intro inputs _
    cases behavior.run inputs <;> trivial
  obtain ⟨count, value, state, ran, holds, _⟩ :=
    leads.finishes safe (fun _ => trivial) (fun _ _ => id) fun _ _ => id
  exact ⟨count, value, state, ran, holds⟩

end

end Clocked
