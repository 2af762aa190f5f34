import Simbus.Clocked.Behavior

/-!
# Programs over a client state

A program reads and changes the state of its client and may exchange messages.
Loops have no bound of their own: each turn that goes on must exchange at
least one message, and a turn that does not is a failure of the client.
-/

namespace Clocked

/-- A program of a client: what it does from each state. -/
structure Program (State Input Value : Type) where
  start : State → Behavior State Input Value

section

variable {State Input Value Result : Type}

instance : Monad (Program State Input) where
  pure value := ⟨fun state => .finish value state⟩
  bind program next :=
    ⟨fun state =>
      (program.start state).bind fun value => (next value).start⟩

namespace Program

theorem ext
    {first second : Program State Input Value}
    (agree : ∀ state, first.start state = second.start state) :
    first = second := by
  obtain ⟨firstStart⟩ := first
  obtain ⟨secondStart⟩ := second
  obtain rfl : firstStart = secondStart := funext agree
  rfl

@[simp] theorem start_pure
    (value : Value)
    (state : State) :
    (pure value : Program State Input Value).start state =
      .finish value state :=
  rfl

@[simp] theorem start_bind
    (program : Program State Input Value)
    (next : Value → Program State Input Result)
    (state : State) :
    (program >>= next).start state =
      (program.start state).bind fun value => (next value).start :=
  rfl

@[simp] theorem start_map
    (change : Value → Result)
    (program : Program State Input Value)
    (state : State) :
    (change <$> program).start state =
      (program.start state).bind fun value => .finish (change value) :=
  rfl

@[simp] theorem start_ite
    (condition : Prop)
    [Decidable condition]
    (yes no : Program State Input Value)
    (state : State) :
    (if condition then yes else no).start state =
      if condition then yes.start state else no.start state := by
  split <;> rfl

instance : LawfulMonad (Program State Input) :=
  LawfulMonad.mk' _
    (fun program => ext fun state =>
      Behavior.bind_finish (program.start state))
    (fun _ _ => rfl)
    (fun program next after => ext fun state =>
      Behavior.bind_assoc (program.start state)
        (fun value => (next value).start) fun value => (after value).start)

/-- The current state. -/
def getState : Program State Input State :=
  ⟨fun state => .finish state state⟩

/-- Change the state. -/
def modifyState (change : State → State) : Program State Input Unit :=
  ⟨fun state => .finish () (change state)⟩

/-- `assert`. -/
def assert (condition : State → Bool) : Program State Input Unit :=
  ⟨fun state => if condition state then .finish () state else .fail state⟩

/-- Stop with a failure. -/
def abort : Program State Input Value :=
  ⟨fun state => .fail state⟩

/-- Send the outputs of the state and handle the reply. -/
def exchange
    (receive : Input → Program State Input Value) :
    Program State Input Value :=
  ⟨fun state => .await state fun input => (receive input).start state⟩

@[simp] theorem start_getState
    (state : State) :
    (getState : Program State Input State).start state =
      .finish state state :=
  rfl

@[simp] theorem start_modifyState
    (change : State → State)
    (state : State) :
    (modifyState change : Program State Input Unit).start state =
      .finish () (change state) :=
  rfl

@[simp] theorem start_assert
    (condition : State → Bool)
    (state : State) :
    (assert condition : Program State Input Unit).start state =
      if condition state then .finish () state else .fail state :=
  rfl

@[simp] theorem start_abort
    (state : State) :
    (abort : Program State Input Value).start state = .fail state :=
  rfl

@[simp] theorem start_exchange
    (receive : Input → Program State Input Value)
    (state : State) :
    (exchange receive).start state =
      .await state fun input => (receive input).start state :=
  rfl

/-! ## Loops -/

section Loop

variable {Local : Type}
variable {body : Local → Program State Input (Local ⊕ Result)}
variable {current next : Local}
variable {state middle : State}
variable {used : List Input}

/-- The turns of a loop on a list of replies; `fuel` exceeds their number. -/
def loopRun
    (body : Local → Program State Input (Local ⊕ Result)) :
    Nat → Local → State → List Input → Outcome State Input Result
  | 0, _, state, _ => .failed state
  | fuel + 1, current, state, inputs =>
      match ((body current).start state).run inputs with
      | .waiting state => .waiting state
      | .failed state => .failed state
      | .finished (.inr result) state rest => .finished result state rest
      | .finished (.inl next) state rest =>
          if rest.length < inputs.length then
            loopRun body fuel next state rest
          else
            .failed state

/-- More fuel than replies is enough fuel. -/
private theorem loopRun_fuel
    {fuel other : Nat}
    {inputs : List Input}
    (enough : inputs.length < fuel)
    (enoughOther : inputs.length < other) :
    loopRun body fuel current state inputs =
      loopRun body other current state inputs := by
  induction fuel generalizing other current state inputs with
  | zero =>
      omega
  | succ fuel inductionHypothesis =>
      obtain ⟨other, rfl⟩ : ∃ before, other = before + 1 :=
        ⟨other - 1, by omega⟩
      simp only [loopRun]
      split
      · rfl
      · rfl
      · rfl
      · split
        · exact inductionHypothesis (by omega) (by omega)
        · rfl

/-- A turn that returns ends the loop. -/
private theorem loopRun_done
    {result : Result}
    {later : List Input}
    (turn : ((body current).start state).run (used ++ later) =
      .finished (.inr result) middle later)
    (fuel : Nat) :
    loopRun body (fuel + 1) current state (used ++ later) =
      .finished result middle later := by
  simp only [loopRun, turn]

/-- A turn that has exchanged a message is followed by the next turn. -/
private theorem loopRun_next
    {later : List Input}
    (turn : ((body current).start state).run (used ++ later) =
      .finished (.inl next) middle later)
    (exchanged : used ≠ [])
    (fuel : Nat) :
    loopRun body (fuel + 1) current state (used ++ later) =
      loopRun body fuel next middle later := by
  have shorter : later.length < (used ++ later).length := by
    have positive := List.length_pos_iff.mpr exchanged
    rw [List.length_append]
    omega
  simp only [loopRun, turn, shorter, ↓reduceIte]

/-- A turn that goes on without a message is a failure. -/
private theorem loopRun_spin
    {inputs : List Input}
    (turn : ((body current).start state).run inputs =
      .finished (.inl next) middle inputs)
    (fuel : Nat) :
    loopRun body (fuel + 1) current state inputs = .failed middle := by
  simp only [loopRun, turn, Nat.lt_irrefl, ↓reduceIte]

/-- A loop that has finished stays so, with the replies it did not read. -/
private theorem loopRun_finished
    {fuel : Nat}
    {inputs rest : List Input}
    {value : Result}
    {final : State}
    (enough : inputs.length < fuel)
    (finished : loopRun body fuel current state inputs =
      .finished value final rest) :
    ∃ used, inputs = used ++ rest ∧
      ∀ later other, (used ++ later).length < other →
        loopRun body other current state (used ++ later) =
          .finished value final later := by
  induction fuel generalizing current state inputs with
  | zero =>
      omega
  | succ fuel inductionHypothesis =>
      cases turn : ((body current).start state).run inputs with
      | waiting _ =>
          simp [loopRun, turn] at finished
      | failed _ =>
          simp [loopRun, turn] at finished
      | finished outcome middle unread =>
          obtain ⟨used, rfl, stable⟩ :=
            ((body current).start state).causal.finished turn
          cases outcome with
          | inr result =>
              rw [loopRun_done turn, Outcome.finished.injEq] at finished
              obtain ⟨rfl, rfl, rfl⟩ := finished
              refine ⟨used, rfl, fun later other enoughOther => ?_⟩
              obtain ⟨other, rfl⟩ : ∃ before, other = before + 1 :=
                ⟨other - 1, by omega⟩
              exact loopRun_done (stable later) other
          | inl next =>
              by_cases exchanged : used = []
              · subst exchanged
                rw [List.nil_append] at turn finished
                rw [loopRun_spin turn] at finished
                cases finished
              · have positive := List.length_pos_iff.mpr exchanged
                rw [loopRun_next turn exchanged] at finished
                rw [List.length_append] at enough
                obtain ⟨usedNext, rfl, stableNext⟩ :=
                  inductionHypothesis (by omega) finished
                refine ⟨used ++ usedNext, by rw [List.append_assoc],
                  fun later other enoughOther => ?_⟩
                obtain ⟨other, rfl⟩ : ∃ before, other = before + 1 :=
                  ⟨other - 1, by omega⟩
                rw [List.append_assoc] at enoughOther ⊢
                rw [loopRun_next (stable (usedNext ++ later)) exchanged]
                rw [List.length_append] at enoughOther
                exact stableNext later other (by omega)

/-- A loop that has failed stays so. -/
private theorem loopRun_failed
    {fuel : Nat}
    {inputs : List Input}
    {final : State}
    (enough : inputs.length < fuel)
    (failed : loopRun body fuel current state inputs = .failed final)
    (later : List Input)
    {other : Nat}
    (enoughOther : (inputs ++ later).length < other) :
    loopRun body other current state (inputs ++ later) =
      .failed final := by
  induction fuel generalizing current state inputs other with
  | zero =>
      omega
  | succ fuel inductionHypothesis =>
      obtain ⟨other, rfl⟩ : ∃ before, other = before + 1 :=
        ⟨other - 1, by omega⟩
      cases turn : ((body current).start state).run inputs with
      | waiting _ =>
          simp [loopRun, turn] at failed
      | failed _ =>
          have still :=
            ((body current).start state).causal.failed turn later
          simp only [loopRun, turn] at failed
          simp only [loopRun, still, failed]
      | finished outcome middle unread =>
          obtain ⟨used, rfl, stable⟩ :=
            ((body current).start state).causal.finished turn
          have still := stable (unread ++ later)
          rw [List.append_assoc] at enoughOther ⊢
          cases outcome with
          | inr result =>
              rw [loopRun_done turn] at failed
              cases failed
          | inl next =>
              by_cases exchanged : used = []
              · subst exchanged
                rw [List.nil_append] at turn failed still ⊢
                rw [loopRun_spin turn] at failed
                rw [loopRun_spin still, failed]
              · have positive := List.length_pos_iff.mpr exchanged
                rw [loopRun_next turn exchanged] at failed
                rw [loopRun_next still exchanged]
                rw [List.length_append] at enough enoughOther
                exact inductionHypothesis (by omega) failed (by omega)

/-- Repeat a body until it returns a result. -/
def loop
    (body : Local → Program State Input (Local ⊕ Result))
    (current : Local) : Program State Input Result where
  start := fun state =>
    { run := fun inputs =>
        loopRun body (inputs.length + 1) current state inputs
      causal :=
        { finished := fun same => by
            obtain ⟨used, split, stable⟩ :=
              loopRun_finished (by omega) same
            exact ⟨used, split, fun later => stable later _ (by omega)⟩
          failed := fun same later =>
            loopRun_failed (by omega) same later (by omega) } }

/-- What a loop does after one turn of its body. -/
def loopNext
    (body : Local → Program State Input (Local ⊕ Result)) :
    Local ⊕ Result → Program State Input Result
  | .inl next => loop body next
  | .inr result => pure result

/-- A loop is one turn and then the rest, if the turn does not spin. -/
theorem start_loop
    (exchanges : ∀ next final rest,
      ((body current).start state).run [] ≠
        .finished (.inl next) final rest) :
    (loop body current).start state =
      ((body current).start state).bind fun outcome =>
        (loopNext body outcome).start := by
  apply Behavior.ext
  intro inputs
  simp only [loop, loopRun, Behavior.bind]
  cases turn : ((body current).start state).run inputs with
  | waiting _ =>
      rfl
  | failed _ =>
      rfl
  | finished outcome middle rest =>
      cases outcome with
      | inr result =>
          rfl
      | inl next =>
          obtain ⟨used, split, stable⟩ :=
            ((body current).start state).causal.finished turn
          have exchanged : used ≠ [] := by
            rintro rfl
            exact exchanges next middle [] (stable [])
          have positive := List.length_pos_iff.mpr exchanged
          have shorter : rest.length < inputs.length := by
            rw [split, List.length_append]
            omega
          simp only [shorter, ↓reduceIte]
          exact loopRun_fuel (by omega) (by omega)

/-- A loop whose first turn spins fails. -/
theorem start_loop_spin
    (spins : (body current).start state = .finish (.inl next) middle) :
    (loop body current).start state = .fail middle := by
  apply Behavior.ext
  intro inputs
  exact loopRun_spin (by rw [spins]; rfl) inputs.length

end Loop

section While

variable {condition : State → Bool}
variable {body : Program State Input Unit}
variable {state : State}

/-- One turn of a `while` loop. -/
def whileTurn
    (condition : State → Bool)
    (body : Program State Input Unit)
    (_ : Unit) : Program State Input (Unit ⊕ Unit) where
  start := fun state =>
    if condition state then
      (body.start state).bind fun _ => .finish (.inl ())
    else
      .finish (.inr ()) state

/-- A `while` loop that keeps its data in the state. -/
def whileDo
    (condition : State → Bool)
    (body : Program State Input Unit) : Program State Input Unit :=
  loop (whileTurn condition body) ()

theorem start_whileDo_false
    (ends : condition state = false) :
    (whileDo condition body).start state = .finish () state := by
  have turn :
      (whileTurn condition body ()).start state =
        .finish (.inr ()) state := by
    simp [whileTurn, ends]
  rw [whileDo, start_loop (by simp [turn]), turn]
  rfl

theorem start_whileDo_true
    (goesOn : condition state = true)
    (exchanges : ∀ final rest,
      (body.start state).run [] ≠ .finished () final rest) :
    (whileDo condition body).start state =
      (body.start state).bind fun _ => (whileDo condition body).start := by
  have turn :
      (whileTurn condition body ()).start state =
        (body.start state).bind fun _ => .finish (.inl ()) := by
    simp [whileTurn, goesOn]
  rw [whileDo, start_loop, turn, Behavior.bind_assoc]
  · rfl
  · intro next final rest
    rw [turn]
    simp only [Behavior.bind]
    split
    · simp
    · rename_i finished
      exact (exchanges _ _ finished).elim
    · simp

end While

end Program

end

end Clocked
