import Mathlib

/-!
# Clients that exchange messages in lockstep

A client sends its outputs, waits for a reply, and goes on.  A `Behavior` says
what the client has come to after any list of replies: it waits for the next
one, it has finished, or it has failed an assertion.  It depends on no reply
that it has not waited for.
-/

namespace Clocked

/-- What a client has come to after a list of replies. -/
inductive Outcome (State Input Value : Type) where
  | waiting (state : State)
  | finished (value : Value) (state : State) (rest : List Input)
  | failed (state : State)

section

variable {State Input Value Result : Type}

/-- Replies that arrive after the end change nothing. -/
structure Causal
    (run : List Input → Outcome State Input Value) : Prop where
  finished :
    ∀ {inputs value state rest},
      run inputs = .finished value state rest →
      ∃ used, inputs = used ++ rest ∧
        ∀ later, run (used ++ later) = .finished value state later
  failed :
    ∀ {inputs state},
      run inputs = .failed state →
      ∀ later, run (inputs ++ later) = .failed state

/-- A client's answer to every list of replies. -/
structure Behavior (State Input Value : Type) where
  run : List Input → Outcome State Input Value
  causal : Causal run

namespace Behavior

/-- Behaviors that answer alike are equal. -/
theorem ext
    {first second : Behavior State Input Value}
    (agree : ∀ inputs, first.run inputs = second.run inputs) :
    first = second := by
  obtain ⟨firstRun, _⟩ := first
  obtain ⟨secondRun, _⟩ := second
  obtain rfl : firstRun = secondRun := funext agree
  rfl

/-! ## Constructions -/

/-- A client that is done. -/
def finish
    (value : Value)
    (state : State) : Behavior State Input Value where
  run := fun inputs => .finished value state inputs
  causal :=
    { finished := fun {inputs _ _ rest} same => by
        simp only [Outcome.finished.injEq] at same
        obtain ⟨rfl, rfl, rfl⟩ := same
        exact ⟨[], rfl, fun _ => rfl⟩
      failed := fun same => by cases same }

/-- A client that has failed an assertion. -/
def fail (state : State) : Behavior State Input Value where
  run := fun _ => .failed state
  causal :=
    { finished := fun same => by cases same
      failed := fun same _ => same }

/-- A client that waits for a reply and then goes on. -/
def await
    (state : State)
    (next : Input → Behavior State Input Value) :
    Behavior State Input Value where
  run := fun
    | [] => .waiting state
    | input :: rest => (next input).run rest
  causal :=
    { finished := fun {inputs _ _ _} same => by
        cases inputs with
        | nil =>
            cases same
        | cons input inputs =>
            obtain ⟨used, split, stable⟩ :=
              (next input).causal.finished same
            exact ⟨input :: used, by rw [split, List.cons_append], stable⟩
      failed := fun {inputs _} same later => by
        cases inputs with
        | nil =>
            cases same
        | cons input inputs =>
            exact (next input).causal.failed same later }

/-- Continue with another behavior once the first one is done. -/
def bind
    (behavior : Behavior State Input Value)
    (next : Value → State → Behavior State Input Result) :
    Behavior State Input Result where
  run := fun inputs =>
    match behavior.run inputs with
    | .waiting state => .waiting state
    | .finished value state rest => (next value state).run rest
    | .failed state => .failed state
  causal :=
    { finished := fun {inputs _ _ _} same => by
        split at same
        · cases same
        · rename_i value state middle finished
          obtain ⟨used, split, stable⟩ :=
            behavior.causal.finished finished
          obtain ⟨usedNext, splitNext, stableNext⟩ :=
            (next value state).causal.finished same
          refine ⟨used ++ usedNext, ?_, ?_⟩
          · rw [split, splitNext, List.append_assoc]
          · intro later
            rw [List.append_assoc, stable (usedNext ++ later)]
            exact stableNext later
        · cases same
      failed := fun {inputs _} same later => by
        split at same
        · cases same
        · rename_i value state middle finished
          obtain ⟨used, rfl, stable⟩ := behavior.causal.finished finished
          rw [List.append_assoc, stable (middle ++ later)]
          exact (next value state).causal.failed same later
        · rename_i state failed
          rw [behavior.causal.failed failed later]
          exact same }

/-- The client after one more reply; who does not wait does not change. -/
def resume
    (behavior : Behavior State Input Value)
    (input : Input) : Behavior State Input Value :=
  match waits : behavior.run [] with
  | .waiting _ =>
      { run := fun rest => behavior.run (input :: rest)
        causal :=
          { finished := fun {inputs value state rest} same => by
              obtain ⟨used, split, stable⟩ := behavior.causal.finished same
              cases used with
              | nil =>
                  have now := stable []
                  rw [List.nil_append, waits] at now
                  cases now
              | cons head used =>
                  rw [List.cons_append, List.cons.injEq] at split
                  obtain ⟨rfl, split⟩ := split
                  exact ⟨used, split, stable⟩
            failed := fun same later => behavior.causal.failed same later } }
  | _ => behavior

/-- The client after more replies. -/
def resumeAll
    (behavior : Behavior State Input Value)
    (inputs : List Input) : Behavior State Input Value :=
  inputs.foldl resume behavior

/-- The state a client is in. -/
def state (behavior : Behavior State Input Value) : State :=
  match behavior.run [] with
  | .waiting state => state
  | .finished _ state _ => state
  | .failed state => state

/-! ## Laws -/

@[simp] theorem run_finish
    (value : Value)
    (state : State)
    (inputs : List Input) :
    (finish value state).run inputs = .finished value state inputs :=
  rfl

@[simp] theorem run_fail
    (state : State)
    (inputs : List Input) :
    (fail state : Behavior State Input Value).run inputs = .failed state :=
  rfl

@[simp] theorem run_await_nil
    (state : State)
    (next : Input → Behavior State Input Value) :
    (await state next).run [] = .waiting state :=
  rfl

@[simp] theorem finish_bind
    (value : Value)
    (state : State)
    (next : Value → State → Behavior State Input Result) :
    (finish value state).bind next = next value state :=
  rfl

@[simp] theorem fail_bind
    (state : State)
    (next : Value → State → Behavior State Input Result) :
    (fail state).bind next = fail state :=
  rfl

@[simp] theorem bind_finish
    (behavior : Behavior State Input Value) :
    behavior.bind finish = behavior := by
  apply ext
  intro inputs
  simp only [bind, run_finish]
  split <;> simp [*]

@[simp] theorem await_bind
    (state : State)
    (next : Input → Behavior State Input Value)
    (after : Value → State → Behavior State Input Result) :
    (await state next).bind after =
      await state fun input => (next input).bind after := by
  apply ext
  intro inputs
  cases inputs <;> rfl

theorem bind_assoc
    {Final : Type}
    (behavior : Behavior State Input Value)
    (next : Value → State → Behavior State Input Result)
    (after : Result → State → Behavior State Input Final) :
    (behavior.bind next).bind after =
      behavior.bind fun value state => (next value state).bind after := by
  apply ext
  intro inputs
  simp only [bind]
  cases behavior.run inputs <;> rfl

@[simp] theorem resume_await
    (state : State)
    (next : Input → Behavior State Input Value)
    (input : Input) :
    (await state next).resume input = next input :=
  rfl

/-- A client that waits is an `await`. -/
theorem eq_await
    {behavior : Behavior State Input Value}
    {state : State}
    (waits : behavior.run [] = .waiting state) :
    behavior = await state behavior.resume := by
  apply ext
  intro inputs
  cases inputs with
  | nil =>
      exact waits
  | cons input rest =>
      simp only [await]
      unfold resume
      split
      · rfl
      · rename_i notWaiting
        exact (notWaiting state waits).elim

/-- A client that has finished before any reply is a `finish`. -/
theorem eq_finish
    {behavior : Behavior State Input Value}
    {value : Value}
    {state : State}
    {rest : List Input}
    (done : behavior.run [] = .finished value state rest) :
    behavior = finish value state := by
  obtain ⟨used, split, stable⟩ := behavior.causal.finished done
  obtain ⟨rfl, _⟩ := List.append_eq_nil_iff.mp split.symm
  apply ext
  intro inputs
  simpa using stable inputs

theorem eq_fail
    {behavior : Behavior State Input Value}
    {state : State}
    (failed : behavior.run [] = .failed state) :
    behavior = fail state := by
  apply ext
  intro inputs
  simpa using behavior.causal.failed failed inputs

/-- A client that waits has not finished. -/
theorem ne_finish
    {behavior : Behavior State Input Value}
    {state : State}
    (waits : behavior.run [] = .waiting state)
    (value : Value)
    (final : State) :
    behavior ≠ finish value final := by
  rintro rfl
  cases waits

theorem fail_ne_finish
    (state : State)
    (value : Value)
    (final : State) :
    (fail state : Behavior State Input Value) ≠ finish value final := by
  intro same
  have now := congrArg (fun behavior => behavior.run []) same
  cases now

theorem finish_inj
    {value value' : Value}
    {state state' : State}
    (same : (finish value state : Behavior State Input Value) =
      finish value' state') :
    value = value' ∧ state = state' := by
  have now := congrArg (fun behavior => behavior.run []) same
  simp only [run_finish, Outcome.finished.injEq] at now
  exact ⟨now.1, now.2.1⟩

theorem resumeAll_append
    (behavior : Behavior State Input Value)
    (inputs later : List Input) :
    behavior.resumeAll (inputs ++ later) =
      (behavior.resumeAll inputs).resumeAll later :=
  List.foldl_append

/-- The replies that a first part takes lead to what follows it. -/
theorem resumeAll_bind
    {inputs : List Input}
    {behavior : Behavior State Input Value}
    {value : Value}
    {state : State}
    (next : Value → State → Behavior State Input Result)
    (finished : behavior.run inputs = .finished value state []) :
    (behavior.bind next).resumeAll inputs = next value state := by
  induction inputs generalizing behavior with
  | nil =>
      rw [eq_finish finished]
      rfl
  | cons input inputs inductionHypothesis =>
      cases now : behavior.run [] with
      | waiting before =>
          have waits := eq_await now
          rw [waits] at finished ⊢
          rw [await_bind]
          exact inductionHypothesis finished
      | finished early before rest =>
          rw [eq_finish now] at finished
          cases finished
      | failed before =>
          rw [eq_fail now] at finished
          cases finished

/-- Every behavior has finished, has failed or waits. -/
theorem cases_now
    (behavior : Behavior State Input Value) :
    (∃ value state, behavior = finish value state) ∨
      (∃ state, behavior = fail state) ∨
      ∃ state, behavior = await state behavior.resume := by
  cases now : behavior.run [] with
  | waiting state =>
      exact .inr (.inr ⟨state, eq_await now⟩)
  | finished value state rest =>
      exact .inl ⟨value, state, eq_finish now⟩
  | failed state =>
      exact .inr (.inl ⟨state, eq_fail now⟩)

end Behavior

end

end Clocked
