import Simbus.Clocked.Safety

/-!
# Two clients and their server

A server waits for both of its clients and then answers them together.  It may
also stop.  Once a client does not wait any more nothing happens.
-/

namespace Clocked

/-- A server between two exchanges, and its clients. -/
structure Pair (Server First Second : Type) where
  server : Server
  first : First
  second : Second

section

variable {Server State₁ Input₁ Value₁ State₂ Input₂ Value₂ : Type}

/-- What a server makes of the states of its clients. -/
abbrev Answer (Server State₁ Input₁ State₂ Input₂ : Type) : Type :=
  Server → State₁ → State₂ → Option (Server × Input₁ × Input₂)

/-- A server with the behaviors of two clients. -/
abbrev Lockstep
    (Server State₁ Input₁ Value₁ State₂ Input₂ Value₂ : Type) : Type :=
  Pair Server (Behavior State₁ Input₁ Value₁) (Behavior State₂ Input₂ Value₂)

variable {answer : Answer Server State₁ Input₁ State₂ Input₂}
variable {pair middle final :
  Lockstep Server State₁ Input₁ Value₁ State₂ Input₂ Value₂}

namespace Pair

/-- One exchange; there is no result if the server stops. -/
def step
    (answer : Answer Server State₁ Input₁ State₂ Input₂)
    (pair : Lockstep Server State₁ Input₁ Value₁ State₂ Input₂ Value₂) :
    Option (Lockstep Server State₁ Input₁ Value₁ State₂ Input₂ Value₂) :=
  match pair.first.run [], pair.second.run [] with
  | .waiting state₁, .waiting state₂ =>
      (answer pair.server state₁ state₂).map fun (server, input₁, input₂) =>
        { server := server
          first := pair.first.resume input₁
          second := pair.second.resume input₂ }
  | _, _ => some pair

/-- Some exchanges. -/
def run
    (answer : Answer Server State₁ Input₁ State₂ Input₂) :
    Nat → Lockstep Server State₁ Input₁ Value₁ State₂ Input₂ Value₂ →
      Option (Lockstep Server State₁ Input₁ Value₁ State₂ Input₂ Value₂)
  | 0, pair => some pair
  | count + 1, pair => (pair.step answer).bind (run answer count)

/-- After some exchanges the pair is in another state. -/
def Reaches
    (answer : Answer Server State₁ Input₁ State₂ Input₂)
    (pair final : Lockstep Server State₁ Input₁ Value₁ State₂ Input₂ Value₂) :
    Prop :=
  ∃ count, pair.run answer count = some final

theorem run_add (count later : Nat) :
    pair.run answer (count + later) =
      (pair.run answer count).bind (run answer later) := by
  induction count generalizing pair with
  | zero =>
      rw [Nat.zero_add]
      rfl
  | succ count inductionHypothesis =>
      rw [Nat.add_right_comm]
      simp only [run]
      cases pair.step answer with
      | none =>
          rfl
      | some next =>
          exact inductionHypothesis

theorem Reaches.refl : Reaches answer pair pair :=
  ⟨0, rfl⟩

theorem Reaches.trans
    (first : Reaches answer pair middle)
    (second : Reaches answer middle final) :
    Reaches answer pair final := by
  obtain ⟨count, ran⟩ := first
  obtain ⟨later, ranLater⟩ := second
  exact ⟨count + later, by rw [run_add, ran, Option.bind_some, ranLater]⟩

theorem Reaches.step
    (stepped : pair.step answer = some middle)
    (later : Reaches answer middle final) :
    Reaches answer pair final := by
  obtain ⟨count, ran⟩ := later
  exact ⟨count + 1, by rw [run, stepped, Option.bind_some, ran]⟩

/-- What an exchange does. -/
theorem step_cases
    (stepped : pair.step answer = some middle) :
    middle = pair ∨
      ∃ state₁ state₂ server input₁ input₂,
        pair.first.run [] = .waiting state₁ ∧
        pair.second.run [] = .waiting state₂ ∧
        answer pair.server state₁ state₂ = some (server, input₁, input₂) ∧
        middle =
          { server := server
            first := pair.first.resume input₁
            second := pair.second.resume input₂ } := by
  rw [Pair.step] at stepped
  split at stepped
  · rename_i state₁ state₂ waits₁ waits₂
    rw [Option.map_eq_some_iff] at stepped
    obtain ⟨⟨server, input₁, input₂⟩, answered, rfl⟩ := stepped
    exact .inr ⟨state₁, state₂, server, input₁, input₂, waits₁, waits₂,
      answered, rfl⟩
  · cases stepped
    exact .inl rfl

/-- An exchange of two clients that wait. -/
theorem step_await
    {server server' : Server}
    {state₁ : State₁} {state₂ : State₂}
    {input₁ : Input₁} {input₂ : Input₂}
    {next₁ : Input₁ → Behavior State₁ Input₁ Value₁}
    {next₂ : Input₂ → Behavior State₂ Input₂ Value₂}
    (answered : answer server state₁ state₂ =
      some (server', input₁, input₂)) :
    Pair.step answer ⟨server, .await state₁ next₁, .await state₂ next₂⟩ =
      some ⟨server', next₁ input₁, next₂ input₂⟩ := by
  simp only [Pair.step, Behavior.run_await_nil, answered, Option.map_some,
    Behavior.resume_await]

/-! ## Ends -/

/-- A client has finished or failed. -/
def Stuck
    (pair : Lockstep Server State₁ Input₁ Value₁ State₂ Input₂ Value₂) :
    Prop :=
  (∀ state, pair.first.run [] ≠ .waiting state) ∨
    ∀ state, pair.second.run [] ≠ .waiting state

theorem Stuck.step
    (stuck : pair.Stuck) :
    pair.step answer = some pair := by
  rw [Pair.step]
  split
  · rename_i state₁ state₂ waits₁ waits₂
    exact (stuck.elim (· state₁ waits₁) (· state₂ waits₂)).elim
  · rfl

theorem Stuck.run
    (stuck : pair.Stuck)
    (count : Nat) :
    pair.run answer count = some pair := by
  induction count with
  | zero =>
      rfl
  | succ count inductionHypothesis =>
      rw [Pair.run, stuck.step, Option.bind_some, inductionHypothesis]

/-- A pair comes to one end only. -/
theorem Reaches.unique
    {other : Lockstep Server State₁ Input₁ Value₁ State₂ Input₂ Value₂}
    (reaches : Reaches answer pair final)
    (stuck : final.Stuck)
    (reachesOther : Reaches answer pair other)
    (stuckOther : other.Stuck) :
    other = final := by
  obtain ⟨count, ran⟩ := reaches
  obtain ⟨countOther, ranOther⟩ := reachesOther
  have forward : pair.run answer (count + countOther) = some final := by
    rw [run_add, ran, Option.bind_some, stuck.run]
  have backward : pair.run answer (countOther + count) = some other := by
    rw [run_add, ranOther, Option.bind_some, stuckOther.run]
  rw [Nat.add_comm, forward, Option.some.injEq] at backward
  exact backward.symm

/-- What comes of a pair comes of every pair on the way. -/
theorem Reaches.later
    (onward : Reaches answer pair middle)
    (reaches : Reaches answer pair final)
    (stuck : final.Stuck) :
    Reaches answer middle final := by
  obtain ⟨count, ran⟩ := onward
  obtain ⟨total, ranTotal⟩ := reaches
  refine ⟨total, ?_⟩
  have whole : pair.run answer (count + total) = some final := by
    rw [Nat.add_comm, run_add, ranTotal, Option.bind_some, stuck.run]
  rwa [run_add, ran, Option.bind_some] at whole

/-- The first client is never done. -/
def Hangs
    (answer : Answer Server State₁ Input₁ State₂ Input₂)
    (pair : Lockstep Server State₁ Input₁ Value₁ State₂ Input₂ Value₂) :
    Prop :=
  ∀ final, Reaches answer pair final →
    ∀ value state, final.first ≠ .finish value state

theorem stuck_of_finish
    {value : Value₁}
    {state : State₁}
    (finished : pair.first = .finish value state) :
    pair.Stuck :=
  .inl fun _ => by
    rw [finished]
    nofun

theorem Stuck.hangs
    (stuck : pair.Stuck)
    (notDone : ∀ value state, pair.first ≠ .finish value state) :
    pair.Hangs answer := by
  rintro final ⟨count, ran⟩
  rw [stuck.run, Option.some.injEq] at ran
  rw [← ran]
  exact notDone

/-- What hangs later hangs now. -/
theorem Reaches.hangs
    (onward : Reaches answer pair middle)
    (later : middle.Hangs answer) :
    pair.Hangs answer := by
  intro final reaches value state finished
  have stuck := stuck_of_finish finished
  exact later final (onward.later reaches stuck) value state finished

/-- A client that waits for a server that stops waits for ever. -/
theorem hangs_of_stop
    {state : State₁}
    (waits : pair.first.run [] = .waiting state)
    (stops : pair.step answer = none) :
    pair.Hangs answer := by
  rintro final ⟨count, ran⟩ value other finished
  cases count with
  | zero =>
      simp only [run, Option.some.injEq] at ran
      rw [ran, finished] at waits
      cases waits
  | succ count =>
      rw [run, stops] at ran
      cases ran

/-! ## Safety -/

variable {allowed₁ : Input₁ → Prop} {allowed₂ : Input₂ → Prop}
variable {waits₁ fails₁ : State₁ → Prop} {waits₂ fails₂ : State₂ → Prop}
variable {post₁ : Value₁ → State₁ → Prop} {post₂ : Value₂ → State₂ → Prop}

/-- Two clients that are safe on what the other one leads to stay so. -/
theorem run_safe
    (answers : ∀ server state₁ state₂ server' input₁ input₂,
      waits₁ state₁ → waits₂ state₂ →
      answer server state₁ state₂ = some (server', input₁, input₂) →
      allowed₁ input₁ ∧ allowed₂ input₂)
    (safe₁ : Safe allowed₁ waits₁ fails₁ post₁ pair.first)
    (safe₂ : Safe allowed₂ waits₂ fails₂ post₂ pair.second)
    (reaches : Reaches answer pair final) :
    Safe allowed₁ waits₁ fails₁ post₁ final.first ∧
      Safe allowed₂ waits₂ fails₂ post₂ final.second := by
  obtain ⟨count, ran⟩ := reaches
  induction count generalizing pair with
  | zero =>
      simp only [run, Option.some.injEq] at ran
      subst ran
      exact ⟨safe₁, safe₂⟩
  | succ count inductionHypothesis =>
      rw [run, Option.bind_eq_some_iff] at ran
      obtain ⟨next, stepped, ran⟩ := ran
      rcases step_cases stepped with
        rfl | ⟨state₁, state₂, server, input₁, input₂, isWaiting₁,
          isWaiting₂, answered, rfl⟩
      · exact inductionHypothesis safe₁ safe₂ ran
      · rw [Behavior.eq_await isWaiting₁, safe_await] at safe₁
        rw [Behavior.eq_await isWaiting₂, safe_await] at safe₂
        obtain ⟨isAllowed₁, isAllowed₂⟩ :=
          answers _ _ _ _ _ _ safe₁.1 safe₂.1 answered
        exact inductionHypothesis (safe₁.2 input₁ isAllowed₁)
          (safe₂.2 input₂ isAllowed₂) ran

end Pair

end

end Clocked
