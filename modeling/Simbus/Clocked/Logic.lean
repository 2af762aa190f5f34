import Simbus.Clocked.Program

/-!
# Logics of clients

Safety and progress are judged by different properties of a client, which have
the same rules for everything but loops.  A `Logic` is a property with these
rules.  Assertions may count the replies so far.
-/

namespace Clocked

section

variable {State Input : Type}

/-- What holds of the result, the number of replies and the state. -/
abbrev Assertion (State Value : Type) : Type :=
  Value → Nat → State → Prop

/-- A property of clients that goes through sequences. -/
structure Logic (State Input : Type) where
  /-- The states in which a client may fail. -/
  mayFail : State → Prop
  ok : ∀ {Value : Type},
    Assertion State Value → Nat → Behavior State Input Value → Prop
  finish : ∀ {Value : Type} {post : Assertion State Value}
      {value : Value} {step : Nat} {state : State},
    post value step state → ok post step (.finish value state)
  fail : ∀ {Value : Type} {post : Assertion State Value}
      {step : Nat} {state : State},
    mayFail state → ok post step (.fail state)
  bind : ∀ {Value Result : Type} {middle : Assertion State Value}
      {post : Assertion State Result} {step : Nat}
      {behavior : Behavior State Input Value}
      {next : Value → State → Behavior State Input Result},
    ok middle step behavior →
    (∀ value step state, middle value step state →
      ok post step (next value state)) →
    ok post step (behavior.bind next)

namespace Logic

variable {logic : Logic State Input}
variable {Value Result : Type}
variable {pre : Nat → State → Prop}
variable {post : Assertion State Value}

theorem mono
    {weaker : Assertion State Value}
    {step : Nat}
    {behavior : Behavior State Input Value}
    (holds : logic.ok post step behavior)
    (implies : ∀ value step state,
      post value step state → weaker value step state) :
    logic.ok weaker step behavior := by
  rw [← Behavior.bind_finish behavior]
  exact logic.bind holds fun value step state reached =>
    logic.finish (implies value step state reached)

/-- From every state of the precondition a program is as it should be. -/
def Triple
    (logic : Logic State Input)
    (pre : Nat → State → Prop)
    (program : Program State Input Value)
    (post : Assertion State Value) : Prop :=
  ∀ step state, pre step state → logic.ok post step (program.start state)

theorem Triple.pure
    {value : Value}
    (holds : ∀ step state, pre step state → post value step state) :
    logic.Triple pre (Pure.pure value) post :=
  fun step state before => logic.finish (holds step state before)

theorem Triple.bind
    {middle : Assertion State Value}
    {post : Assertion State Result}
    {program : Program State Input Value}
    {next : Value → Program State Input Result}
    (first : logic.Triple pre program middle)
    (second : ∀ value, logic.Triple (middle value) (next value) post) :
    logic.Triple pre (program >>= next) post :=
  fun step state before =>
    logic.bind (first step state before) fun value step state =>
      second value step state

/-- Rule of consequence. -/
theorem Triple.weaken
    {stronger : Nat → State → Prop}
    {weaker : Assertion State Value}
    {program : Program State Input Value}
    (triple : logic.Triple pre program post)
    (before : ∀ step state, stronger step state → pre step state)
    (after : ∀ value step state,
      post value step state → weaker value step state) :
    logic.Triple stronger program weaker :=
  fun step state holds => mono (triple step state (before step state holds))
    after

/-- The state that is read is the current one. -/
theorem Triple.getState
    {next : State → Program State Input Value}
    (reads : ∀ step state, pre step state →
      logic.ok post step ((next state).start state)) :
    logic.Triple pre (Program.getState >>= next) post :=
  fun step state before => reads step state before

theorem Triple.modifyState
    {change : State → State}
    {post : Assertion State Unit}
    (holds : ∀ step state,
      pre step state → post () step (change state)) :
    logic.Triple pre (Program.modifyState change) post :=
  fun step state before => logic.finish (holds step state before)

theorem Triple.ite
    {condition : Prop}
    [Decidable condition]
    {yes no : Program State Input Value}
    (first : condition → logic.Triple pre yes post)
    (second : ¬ condition → logic.Triple pre no post) :
    logic.Triple pre (if condition then yes else no) post := by
  split
  · exact first ‹_›
  · exact second ‹_›

/-- A program keeps an assertion. -/
abbrev Keeps
    (logic : Logic State Input)
    (holds : Nat → State → Prop)
    (program : Program State Input Value) : Prop :=
  logic.Triple holds program fun _ => holds

section Keeps

variable {holds : Nat → State → Prop}

theorem Keeps.pure (value : Value) :
    logic.Keeps holds (Pure.pure value) :=
  Triple.pure fun _ _ before => before

theorem Keeps.bind
    {program : Program State Input Value}
    {next : Value → Program State Input Result}
    (first : logic.Keeps holds program)
    (later : ∀ value, logic.Keeps holds (next value)) :
    logic.Keeps holds (program >>= next) :=
  Triple.bind first later

theorem Keeps.getState
    {next : State → Program State Input Value}
    (reads : ∀ state, logic.Keeps holds (next state)) :
    logic.Keeps holds (Program.getState >>= next) :=
  Triple.getState fun step state before => reads state step state before

theorem Keeps.ite
    {condition : Prop}
    [Decidable condition]
    {yes no : Program State Input Value}
    (first : logic.Keeps holds yes)
    (second : logic.Keeps holds no) :
    logic.Keeps holds (if condition then yes else no) :=
  Triple.ite (fun _ => first) fun _ => second

end Keeps

/-- The logic of clients that need no reply. -/
def instantly (mayFail : State → Prop) : Logic State Input where
  mayFail := mayFail
  ok := fun post step behavior =>
    (∃ value state, behavior = .finish value state ∧ post value step state) ∨
      ∃ state, behavior = .fail state ∧ mayFail state
  finish := fun reached => .inl ⟨_, _, rfl, reached⟩
  fail := fun reached => .inr ⟨_, rfl, reached⟩
  bind := by
    rintro _ _ _ _ step _ _ (⟨value, state, rfl, reached⟩ |
      ⟨state, rfl, reached⟩) later
    · exact later value step state reached
    · exact .inr ⟨state, rfl, reached⟩

end Logic

end

end Clocked
