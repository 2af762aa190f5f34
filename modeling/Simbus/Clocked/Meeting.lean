import Simbus.Clocked.Pair

/-!
# Programs between meetings

One client comes back to the same place in its loop again and again.  What a
program of the other client does to both of them is told from one such place to
another.
-/

namespace Clocked

/-- A state of the server with the behavior of the second client there. -/
structure Meeting
    (Server State₁ Input₁ State₂ Input₂ Value₂ : Type) where
  answer : Answer Server State₁ Input₁ State₂ Input₂
  server : Server
  home : State₂ → Behavior State₂ Input₂ Value₂

section

variable {Server State₁ Input₁ Value Result State₂ Input₂ Value₂ : Type}
variable {meeting : Meeting Server State₁ Input₁ State₂ Input₂ Value₂}

namespace Meeting

/-- The first client with the second one at home. -/
abbrev pair
    (meeting : Meeting Server State₁ Input₁ State₂ Input₂ Value₂)
    (first : Behavior State₁ Input₁ Value)
    (state₂ : State₂) :
    Lockstep Server State₁ Input₁ Value State₂ Input₂ Value₂ :=
  ⟨meeting.server, first, meeting.home state₂⟩

/-- Whatever the first client does next, a behavior comes to an end. -/
structure Ends
    (meeting : Meeting Server State₁ Input₁ State₂ Input₂ Value₂)
    (behavior : Behavior State₁ Input₁ Value)
    (state₂ : State₂)
    (value : Value)
    (state₁' : State₁)
    (state₂' : State₂) : Prop where
  reaches : ∀ {Result : Type}
    (next : Value → State₁ → Behavior State₁ Input₁ Result),
    Pair.Reaches meeting.answer (meeting.pair (behavior.bind next) state₂)
      (meeting.pair (next value state₁') state₂')

/-- Whatever the first client would do next, it is not done with this. -/
structure Halts
    (meeting : Meeting Server State₁ Input₁ State₂ Input₂ Value₂)
    (behavior : Behavior State₁ Input₁ Value)
    (state₂ : State₂) : Prop where
  hangs : ∀ {Result : Type}
    (next : Value → State₁ → Behavior State₁ Input₁ Result),
    (meeting.pair (behavior.bind next) state₂).Hangs meeting.answer

/-- A behavior comes to an end that satisfies an assertion, or hangs. -/
def Settles
    (meeting : Meeting Server State₁ Input₁ State₂ Input₂ Value₂)
    (mayHang : Prop)
    (behavior : Behavior State₁ Input₁ Value)
    (state₂ : State₂)
    (post : Value → State₁ → State₂ → Prop) : Prop :=
  (∃ value state₁' state₂', post value state₁' state₂' ∧
      meeting.Ends behavior state₂ value state₁' state₂') ∨
    mayHang ∧ meeting.Halts behavior state₂

variable {mayHang : Prop}
variable {behavior : Behavior State₁ Input₁ Value}
variable {state₁ : State₁}
variable {state₂ : State₂}
variable {post : Value → State₁ → State₂ → Prop}

theorem Settles.finish
    {value : Value}
    (holds : post value state₁ state₂) :
    meeting.Settles mayHang (.finish value state₁) state₂ post :=
  .inl ⟨value, state₁, state₂, holds, ⟨fun _ => .refl⟩⟩

theorem Halts.fail :
    meeting.Halts (.fail state₁ : Behavior State₁ Input₁ Value) state₂ := by
  constructor
  intro Result next
  exact Pair.Stuck.hangs (.inl fun _ => nofun) (Behavior.fail_ne_finish _)

theorem Halts.bind
    {next : Value → State₁ → Behavior State₁ Input₁ Result}
    (halts : meeting.Halts behavior state₂) :
    meeting.Halts (behavior.bind next) state₂ := by
  constructor
  intro Final after
  rw [Behavior.bind_assoc]
  exact halts.hangs _

theorem Settles.fail
    (may : mayHang) :
    meeting.Settles mayHang (.fail state₁) state₂ post :=
  .inr ⟨may, Halts.fail⟩

theorem Settles.bind
    {middle : Value → State₁ → State₂ → Prop}
    {post : Result → State₁ → State₂ → Prop}
    {next : Value → State₁ → Behavior State₁ Input₁ Result}
    (first : meeting.Settles mayHang behavior state₂ middle)
    (later : ∀ value state₁ state₂, middle value state₁ state₂ →
      meeting.Settles mayHang (next value state₁) state₂ post) :
    meeting.Settles mayHang (behavior.bind next) state₂ post := by
  rcases first with ⟨value, state₁', state₂', holds, ends⟩ | ⟨may, halts⟩
  · rcases later value state₁' state₂' holds with
      ⟨result, final₁, final₂, reached, endsLater⟩ | ⟨may, halts⟩
    · refine .inl ⟨result, final₁, final₂, reached, ⟨fun after => ?_⟩⟩
      rw [Behavior.bind_assoc]
      exact (ends.reaches _).trans (endsLater.reaches after)
    · refine .inr ⟨may, ⟨fun after => ?_⟩⟩
      rw [Behavior.bind_assoc]
      exact (ends.reaches _).hangs (halts.hangs after)
  · exact .inr ⟨may, halts.bind⟩

theorem Settles.weaken
    {weaker : Value → State₁ → State₂ → Prop}
    (settles : meeting.Settles mayHang behavior state₂ post)
    (implies : ∀ value state₁ state₂,
      post value state₁ state₂ → weaker value state₁ state₂) :
    meeting.Settles mayHang behavior state₂ weaker := by
  rcases settles with ⟨value, state₁', state₂', holds, ends⟩ | hangs
  · exact .inl
      ⟨value, state₁', state₂', implies _ _ _ holds, ends⟩
  · exact .inr hangs

/-- Whatever the first client does in the end, it comes from one to another. -/
structure Onward
    (meeting : Meeting Server State₁ Input₁ State₂ Input₂ Value₂)
    (behavior : Behavior State₁ Input₁ Value)
    (state₂ : State₂)
    (later : Behavior State₁ Input₁ Value)
    (state₂' : State₂) : Prop where
  reaches : ∀ {Result : Type}
    (next : Value → State₁ → Behavior State₁ Input₁ Result),
    Pair.Reaches meeting.answer (meeting.pair (behavior.bind next) state₂)
      (meeting.pair (later.bind next) state₂')

section Onward

variable {later : Behavior State₁ Input₁ Value}
variable {state₂' : State₂}

/-- After a part that ends comes the rest. -/
theorem Ends.onward
    {value : Value}
    {state₁' : State₁}
    (ends : meeting.Ends behavior state₂ value state₁' state₂')
    (next : Value → State₁ → Behavior State₁ Input₁ Result) :
    meeting.Onward (behavior.bind next) state₂ (next value state₁')
      state₂' := by
  constructor
  intro Final after
  rw [Behavior.bind_assoc]
  exact ends.reaches _

theorem Onward.settles
    (onward : meeting.Onward behavior state₂ later state₂')
    (settles : meeting.Settles mayHang later state₂' post) :
    meeting.Settles mayHang behavior state₂ post := by
  rcases settles with ⟨value, final₁, final₂, holds, ends⟩ | ⟨may, halts⟩
  · exact .inl ⟨value, final₁, final₂, holds,
      ⟨fun next => (onward.reaches next).trans (ends.reaches next)⟩⟩
  · exact .inr
      ⟨may, ⟨fun next => (onward.reaches next).hangs (halts.hangs next)⟩⟩

end Onward

/-- A part that comes to a certain end, and then the rest. -/
theorem Ends.settles
    {value : Value}
    {state₁' : State₁}
    {state₂' : State₂}
    {post : Result → State₁ → State₂ → Prop}
    {next : Value → State₁ → Behavior State₁ Input₁ Result}
    (ends : meeting.Ends behavior state₂ value state₁' state₂')
    (later : meeting.Settles mayHang (next value state₁') state₂' post) :
    meeting.Settles mayHang (behavior.bind next) state₂ post :=
  (ends.onward next).settles later

/-- A program after an assertion. -/
theorem Settles.assert
    {condition : State₁ → Bool}
    {program : Program State₁ Input₁ Value}
    (holds : ¬ mayHang → condition state₁ = true)
    (later : condition state₁ = true →
      meeting.Settles mayHang (program.start state₁) state₂ post) :
    meeting.Settles mayHang
      ((do
        Program.assert condition
        program).start state₁)
      state₂ post := by
  rw [Program.start_bind, Program.start_assert]
  split
  · rename_i isTrue
    exact later isTrue
  · rename_i isFalse
    exact .fail (Classical.byContradiction fun no => isFalse (holds no))

/-- The whole program has come to an end or hangs. -/
theorem Settles.outcome
    (settles : meeting.Settles mayHang behavior state₂ post) :
    (∃ value state₁' state₂', post value state₁' state₂' ∧
      Pair.Reaches meeting.answer (meeting.pair behavior state₂)
        (meeting.pair (.finish value state₁') state₂')) ∨
    mayHang ∧ (meeting.pair behavior state₂).Hangs meeting.answer := by
  rcases settles with ⟨value, state₁', state₂', holds, ends⟩ | ⟨may, halts⟩
  · have reaches := ends.reaches Behavior.finish
    rw [Behavior.bind_finish] at reaches
    exact .inl ⟨value, state₁', state₂', holds, reaches⟩
  · have hangs := halts.hangs Behavior.finish
    rw [Behavior.bind_finish] at hangs
    exact .inr ⟨may, hangs⟩

end Meeting

end

end Clocked
