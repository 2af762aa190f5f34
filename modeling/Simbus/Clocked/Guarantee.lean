import Simbus.Clocked.Program

/-!
# Guarantees of a client

A monitor follows the exchanges of a client: it checks the state in which the
client waits and moves on with each reply that the environment may give.  A
client meets a guarantee if every check succeeds, however long it runs, and
its end satisfies the postcondition.  There is one rule for each construction.
-/

namespace Clocked

section

variable {State Input Value Result : Type}

/-- A monitor of the exchanges of a client. -/
structure Monitor (State Input : Type) where
  Phase : Type
  check : Phase → State → Prop
  advance : Phase → State → Input → Phase → Prop

/-- What a client has established when it is done. -/
abbrev Post (monitor : Monitor State Input) (Value : Type) : Type :=
  Value → monitor.Phase → State → Prop

variable {monitor : Monitor State Input}

/-- The checks of the first `depth` exchanges succeed. -/
def MeetsTo
    (monitor : Monitor State Input)
    (post : Post monitor Value) :
    Nat → monitor.Phase → Behavior State Input Value → Prop
  | 0, _, _ => True
  | depth + 1, phase, behavior =>
      match behavior.run [] with
      | .waiting state =>
          monitor.check phase state ∧
            ∀ input next, monitor.advance phase state input next →
              MeetsTo monitor post depth next (behavior.resume input)
      | .finished value state _ => post value phase state
      | .failed _ => True

/-- All checks succeed, and the end satisfies the postcondition. -/
def Meets
    (monitor : Monitor State Input)
    (post : Post monitor Value)
    (phase : monitor.Phase)
    (behavior : Behavior State Input Value) : Prop :=
  ∀ depth, MeetsTo monitor post depth phase behavior

variable {post : Post monitor Value}
variable {phase : monitor.Phase}
variable {state : State}

/-! ## Rules for behaviors -/

@[simp] theorem meets_finish
    {value : Value} :
    Meets monitor post phase (.finish value state) ↔
      post value phase state := by
  constructor
  · intro meets
    exact meets 1
  · intro holds depth
    cases depth with
    | zero =>
        trivial
    | succ depth =>
        exact holds

@[simp] theorem meets_fail :
    Meets monitor post phase (.fail state) := by
  intro depth
  cases depth <;> trivial

@[simp] theorem meets_await
    {next : Input → Behavior State Input Value} :
    Meets monitor post phase (.await state next) ↔
      monitor.check phase state ∧
        ∀ input later, monitor.advance phase state input later →
          Meets monitor post later (next input) := by
  constructor
  · intro meets
    exact ⟨(meets 1).1, fun input later advances depth =>
      (meets (depth + 1)).2 input later advances⟩
  · rintro ⟨checks, later⟩ depth
    cases depth with
    | zero =>
        trivial
    | succ depth =>
        exact ⟨checks, fun input after advances =>
          later input after advances depth⟩

/-- The rule for a client that waits, whatever it is made of. -/
theorem meets_of_waits
    {behavior : Behavior State Input Value}
    (waits : behavior.run [] = .waiting state) :
    Meets monitor post phase behavior ↔
      monitor.check phase state ∧
        ∀ input later, monitor.advance phase state input later →
          Meets monitor post later (behavior.resume input) := by
  have rule :
      Meets monitor post phase (.await state behavior.resume) ↔ _ :=
    meets_await
  rw [← Behavior.eq_await waits] at rule
  exact rule

/-- A weaker postcondition. -/
theorem MeetsTo.mono
    {depth : Nat}
    {weaker : Post monitor Value}
    {behavior : Behavior State Input Value}
    (implies : ∀ value phase state,
      post value phase state → weaker value phase state)
    (meets : MeetsTo monitor post depth phase behavior) :
    MeetsTo monitor weaker depth phase behavior := by
  induction depth generalizing phase behavior with
  | zero =>
      trivial
  | succ depth inductionHypothesis =>
      unfold MeetsTo at meets ⊢
      split at meets
      · exact ⟨meets.1, fun input next advances =>
          inductionHypothesis (meets.2 input next advances)⟩
      · exact implies _ _ _ meets
      · trivial

theorem Meets.mono
    {weaker : Post monitor Value}
    {behavior : Behavior State Input Value}
    (meets : Meets monitor post phase behavior)
    (implies : ∀ value phase state,
      post value phase state → weaker value phase state) :
    Meets monitor weaker phase behavior :=
  fun depth => (meets depth).mono implies

/-- Sequence, where the second part needs no more depth than what is left. -/
theorem MeetsTo.bind
    {depth : Nat}
    {post : Post monitor Result}
    {middle : Post monitor Value}
    {behavior : Behavior State Input Value}
    {next : Value → State → Behavior State Input Result}
    (meets : MeetsTo monitor middle depth phase behavior)
    (continues : ∀ left, left ≤ depth → ∀ value phase state,
      middle value phase state →
        MeetsTo monitor post left phase (next value state)) :
    MeetsTo monitor post depth phase (behavior.bind next) := by
  induction depth generalizing phase behavior with
  | zero =>
      trivial
  | succ depth inductionHypothesis =>
      rcases behavior.cases_now with
        ⟨value, state, rfl⟩ | ⟨state, rfl⟩ | ⟨state, waits⟩
      · exact continues _ (Nat.le_refl _) value phase state meets
      · trivial
      · rw [waits] at meets ⊢
        rw [Behavior.await_bind]
        refine ⟨meets.1, fun input after advances => ?_⟩
        exact inductionHypothesis (meets.2 input after advances)
          fun left bounded => continues left (by omega)

theorem Meets.bind
    {post : Post monitor Result}
    {middle : Post monitor Value}
    {behavior : Behavior State Input Value}
    {next : Value → State → Behavior State Input Result}
    (meets : Meets monitor middle phase behavior)
    (continues : ∀ value phase state,
      middle value phase state →
        Meets monitor post phase (next value state)) :
    Meets monitor post phase (behavior.bind next) :=
  fun depth => (meets depth).bind fun left _ value phase state holds =>
    continues value phase state holds left

/-! ## Replies that may come -/

/-- The environment may give these replies. -/
def Monitor.Allows
    (monitor : Monitor State Input) :
    List Input → monitor.Phase → Behavior State Input Value → Prop
  | [], _, _ => True
  | input :: inputs, phase, behavior =>
      ∀ state, behavior.run [] = .waiting state →
        ∃ next, monitor.advance phase state input next ∧
          Allows monitor inputs next (behavior.resume input)

/-- A client that is done on replies that may come has met its guarantee. -/
theorem Meets.of_allows
    {behavior : Behavior State Input Value}
    {inputs : List Input}
    {value : Value}
    {final : State}
    (meets : Meets monitor post phase behavior)
    (allows : monitor.Allows inputs phase behavior)
    (finished : behavior.run inputs = .finished value final []) :
    ∃ phase, post value phase final := by
  induction inputs generalizing phase behavior with
  | nil =>
      rw [Behavior.eq_finish finished] at meets
      exact ⟨phase, meets_finish.mp meets⟩
  | cons input inputs inductionHypothesis =>
      rcases behavior.cases_now with ⟨_, _, rfl⟩ | ⟨_, rfl⟩ | ⟨state, waits⟩
      · cases finished
      · cases finished
      · have isWaiting : behavior.run [] = .waiting state := by
          rw [waits]
          rfl
        obtain ⟨next, advances, allowsLater⟩ := allows state isWaiting
        have later := ((meets_of_waits isWaiting).mp meets).2 input next advances
        rw [waits] at finished
        exact inductionHypothesis later allowsLater finished

/-! ## Rules for programs -/

/-- From every state of the precondition a program meets the guarantee. -/
def Triple
    (monitor : Monitor State Input)
    (pre : monitor.Phase → State → Prop)
    (program : Program State Input Value)
    (post : Post monitor Value) : Prop :=
  ∀ phase state, pre phase state →
    Meets monitor post phase (program.start state)

variable {pre : monitor.Phase → State → Prop}

theorem Triple.pure
    {value : Value}
    (holds : ∀ phase state, pre phase state → post value phase state) :
    Triple monitor pre (Pure.pure value) post :=
  fun phase state before => meets_finish.mpr (holds phase state before)

theorem Triple.bind
    {post : Post monitor Result}
    {middle : Post monitor Value}
    {program : Program State Input Value}
    {next : Value → Program State Input Result}
    (first : Triple monitor pre program middle)
    (second : ∀ value, Triple monitor (middle value) (next value) post) :
    Triple monitor pre (program >>= next) post :=
  fun phase state before =>
    (first phase state before).bind fun value phase state =>
      second value phase state

/-- Rule of consequence. -/
theorem Triple.weaken
    {stronger : monitor.Phase → State → Prop}
    {weaker : Post monitor Value}
    {program : Program State Input Value}
    (triple : Triple monitor pre program post)
    (before : ∀ phase state, stronger phase state → pre phase state)
    (after : ∀ value phase state,
      post value phase state → weaker value phase state) :
    Triple monitor stronger program weaker :=
  fun phase state holds =>
    (triple phase state (before phase state holds)).mono after

/-- The state that is read is the current one. -/
theorem Triple.getState
    {next : State → Program State Input Value}
    (reads : ∀ state,
      Triple monitor
        (fun phase current => pre phase current ∧ current = state)
        (next state) post) :
    Triple monitor pre (Program.getState >>= next) post :=
  fun phase state holds => reads state phase state ⟨holds, rfl⟩

theorem Triple.modifyState
    {change : State → State}
    {post : Post monitor Unit}
    (holds : ∀ phase state,
      pre phase state → post () phase (change state)) :
    Triple monitor pre (Program.modifyState change) post :=
  fun phase state before => meets_finish.mpr (holds phase state before)

theorem Triple.assert
    {condition : State → Bool}
    {post : Post monitor Unit}
    (holds : ∀ phase state,
      pre phase state → condition state = true → post () phase state) :
    Triple monitor pre (Program.assert condition) post := by
  intro phase state before
  by_cases succeeds : condition state = true
  · simpa [succeeds] using holds phase state before succeeds
  · simp [succeeds]

theorem Triple.abort :
    Triple monitor pre (Program.abort : Program State Input Value) post :=
  fun _ _ _ => meets_fail

theorem Triple.ite
    {condition : Prop}
    [Decidable condition]
    {yes no : Program State Input Value}
    (first : condition → Triple monitor pre yes post)
    (second : ¬ condition → Triple monitor pre no post) :
    Triple monitor pre (if condition then yes else no) post := by
  split
  · exact first ‹_›
  · exact second ‹_›

section Loop

variable {Local : Type}
variable {body : Local → Program State Input (Local ⊕ Result)}

/--
A loop keeps an invariant on its locals.  The induction is on the depth: a
turn that goes on has exchanged a message, or the loop fails.
-/
theorem Triple.loop
    {post : Post monitor Result}
    (invariant : Local → monitor.Phase → State → Prop)
    (turn : ∀ current,
      Triple monitor (invariant current) (body current)
        fun outcome phase state =>
          match outcome with
          | .inl next => invariant next phase state
          | .inr result => post result phase state)
    (current : Local) :
    Triple monitor (invariant current) (Program.loop body current) post := by
  intro phase state holds depth
  induction depth using Nat.strongRecOn
      generalizing current phase state with
  | ind depth inductionHypothesis =>
      have meets := turn current phase state holds depth
      rcases ((body current).start state).cases_now with
        ⟨outcome, final, done⟩ | ⟨final, failed⟩ | ⟨waiting, waits⟩
      · cases outcome with
        | inl next =>
            rw [Program.start_loop_spin done]
            exact meets_fail depth
        | inr result =>
            rw [Program.start_loop (by simp [done]), done]
            have ends := turn current phase state holds 1
            rw [done] at ends
            exact meets_finish.mpr ends depth
      · rw [Program.start_loop (by simp [failed]), failed]
        exact meets_fail depth
      · rw [Program.start_loop (by rw [waits]; simp), waits,
          Behavior.await_bind]
        cases depth with
        | zero =>
            trivial
        | succ depth =>
            rw [waits] at meets
            refine ⟨meets.1, fun input after advances => ?_⟩
            refine (meets.2 input after advances).bind ?_
            intro left bounded outcome phase state reached
            cases outcome with
            | inl next =>
                exact inductionHypothesis left (by omega) next phase state
                  reached
            | inr result =>
                exact meets_finish.mpr reached left

/-- The rule for `while`. -/
theorem Triple.whileDo
    {condition : State → Bool}
    {body : Program State Input Unit}
    (invariant : monitor.Phase → State → Prop)
    (turn :
      Triple monitor
        (fun phase state => invariant phase state ∧ condition state = true)
        body fun _ => invariant) :
    Triple monitor invariant (Program.whileDo condition body)
      fun _ phase state =>
        invariant phase state ∧ condition state = false := by
  refine Triple.loop (fun _ => invariant) (fun _ => ?_) ()
  intro phase state holds
  by_cases goesOn : condition state = true
  · simp only [Program.whileTurn, goesOn, ↓reduceIte]
    exact (turn phase state ⟨holds, goesOn⟩).bind
      fun _ _ _ still => meets_finish.mpr still
  · simp only [Program.whileTurn, goesOn, Bool.false_eq_true, ↓reduceIte]
    exact meets_finish.mpr ⟨holds, by simpa using goesOn⟩

end Loop

/-! ## Programs that keep an assertion -/

section Keeps

variable {holds : monitor.Phase → State → Prop}

/-- The assertion holds again when the program is done. -/
abbrev Keeps
    (monitor : Monitor State Input)
    (holds : monitor.Phase → State → Prop)
    (program : Program State Input Value) : Prop :=
  Triple monitor holds program fun _ => holds

theorem Keeps.pure
    (value : Value) :
    Keeps monitor holds (Pure.pure value) :=
  Triple.pure fun _ _ before => before

theorem Keeps.bind
    {program : Program State Input Value}
    {next : Value → Program State Input Result}
    (first : Keeps monitor holds program)
    (second : ∀ value, Keeps monitor holds (next value)) :
    Keeps monitor holds (program >>= next) :=
  Triple.bind first second

/-- What follows may use that the assertion holds of the state it reads. -/
theorem Keeps.getState
    {next : State → Program State Input Value}
    (reads : ∀ state phase,
      holds phase state → Keeps monitor holds (next state)) :
    Keeps monitor holds (Program.getState >>= next) :=
  fun phase state before => reads state phase before phase state before

theorem Keeps.loop
    {Local : Type}
    {body : Local → Program State Input (Local ⊕ Result)}
    (turn : ∀ current, Keeps monitor holds (body current))
    (current : Local) :
    Keeps monitor holds (Program.loop body current) := by
  refine Triple.loop (fun _ => holds) (fun current => ?_) current
  apply (turn current).weaken (fun _ _ before => before)
  intro outcome phase state after
  cases outcome <;> exact after

theorem Keeps.whileDo
    {condition : State → Bool}
    {body : Program State Input Unit}
    (turn : Keeps monitor holds body) :
    Keeps monitor holds (Program.whileDo condition body) :=
  (Triple.whileDo holds
    (turn.weaken (fun _ _ before => before.1) fun _ _ _ after => after)).weaken
      (fun _ _ before => before) fun _ _ _ after => after.1

end Keeps

end

end Clocked
