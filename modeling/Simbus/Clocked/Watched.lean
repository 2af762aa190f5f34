import Simbus.Clocked.Logic

/-!
# Watched programs

A program in which some calls are watched: the program fails if a watched call
changes a part of the state.  Unless it fails, it does what it does without the
watch.
-/

namespace Clocked

section

variable {State Input Value Result Part : Type}

/-- A behavior does the same as another one, or it fails. -/
def Behavior.Tracks
    (watched original : Behavior State Input Value) : Prop :=
  ∀ inputs, watched.run inputs = original.run inputs ∨
    ∃ state, watched.run inputs = .failed state

theorem Behavior.Tracks.refl
    (behavior : Behavior State Input Value) :
    behavior.Tracks behavior :=
  fun _ => .inl rfl

theorem Behavior.Tracks.bind
    {watched original : Behavior State Input Value}
    {watchedNext next : Value → State → Behavior State Input Result}
    (first : watched.Tracks original)
    (later : ∀ value state,
      (watchedNext value state).Tracks (next value state)) :
    (watched.bind watchedNext).Tracks (original.bind next) := by
  intro inputs
  simp only [Behavior.bind]
  rcases first inputs with same | ⟨state, failed⟩
  · rw [same]
    cases original.run inputs with
    | waiting state =>
        exact .inl rfl
    | failed state =>
        exact .inl rfl
    | finished value state rest =>
        exact later value state rest
  · rw [failed]
    exact .inr ⟨state, rfl⟩

namespace Program

/-- A program does the same as another one, or it fails. -/
def Tracks (watched original : Program State Input Value) : Prop :=
  ∀ state, (watched.start state).Tracks (original.start state)

theorem Tracks.refl (program : Program State Input Value) :
    program.Tracks program :=
  fun _ => .refl _

theorem Tracks.bind
    {watched original : Program State Input Value}
    {watchedNext next : Value → Program State Input Result}
    (first : watched.Tracks original)
    (later : ∀ value, (watchedNext value).Tracks (next value)) :
    (watched >>= watchedNext).Tracks (original >>= next) :=
  fun state => (first state).bind fun value => later value

/-- Only what follows a program is watched. -/
theorem Tracks.next
    {program : Program State Input Value}
    {watchedNext next : Value → Program State Input Result}
    (later : ∀ value, (watchedNext value).Tracks (next value)) :
    (program >>= watchedNext).Tracks (program >>= next) :=
  Tracks.bind (.refl program) later

theorem Tracks.ite
    {condition : Prop}
    [Decidable condition]
    {watchedYes watchedNo yes no : Program State Input Value}
    (first : watchedYes.Tracks yes)
    (second : watchedNo.Tracks no) :
    (if condition then watchedYes else watchedNo).Tracks
      (if condition then yes else no) := by
  split
  · exact first
  · exact second

/-- Run a program and check that a part of the state is as it was before. -/
def watch
    [DecidableEq Part]
    (part : State → Part)
    (program : Program State Input Value) : Program State Input Value := do
  let before ← getState
  let value ← program
  assert fun state => part state = part before
  return value

theorem watch_tracks
    [DecidableEq Part]
    (part : State → Part)
    (program : Program State Input Value) :
    (watch part program).Tracks program := by
  intro state inputs
  rw [watch, start_bind, start_getState, Behavior.finish_bind, start_bind]
  simp only [Behavior.bind]
  cases program.start state |>.run inputs with
  | waiting state =>
      exact .inl rfl
  | failed state =>
      exact .inl rfl
  | finished value final rest =>
      simp only [start_bind, start_assert]
      split
      · exact .inl rfl
      · exact .inr ⟨final, rfl⟩

end Program

/-- After a watched call the part is as it was before. -/
theorem Logic.Triple.watch
    {logic : Logic State Input}
    [DecidableEq Part]
    {part : State → Part}
    {before : Part}
    {pre : Nat → State → Prop}
    {post : Assertion State Value}
    {program : Program State Input Value}
    (triple : logic.Triple pre program post)
    (isBefore : ∀ step state, pre step state → part state = before)
    (mayFail : ∀ state, logic.mayFail state) :
    logic.Triple pre (Program.watch part program) fun value step state =>
      post value step state ∧ part state = before := by
  refine Triple.getState fun step state holds => ?_
  refine logic.bind (triple step state holds) fun value step state reached => ?_
  have same := isBefore _ _ holds
  rw [same, Program.start_bind, Program.start_assert]
  split
  · rename_i unchanged
    exact logic.finish ⟨reached, of_decide_eq_true unchanged⟩
  · exact logic.fail (mayFail state)

end

end Clocked
