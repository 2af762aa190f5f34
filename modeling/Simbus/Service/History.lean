import Mathlib

/-!
# The life of a bus

What its clients can tell of a bus is a history of events: readings from the
clients, the initialization, and the messages of the server.  A proper life
has one initialization, rounds in lockstep with all devices, and an end.
-/

namespace Simbus.Service

/-- A descriptor of a connection; `none` is the -1 of a device never seen. -/
abbrev Fd : Type := Option Nat

/-- What happens on one bus. -/
inductive Event where
  | runInit
  /-- A READY of the device has been processed. -/
  | ready (dev : String)
  /-- A FINISH of the device has been received, or its stream has ended. -/
  | leaves (dev : String)
  | youAre (dev : String)
  /-- A round: the devices that were sent UNTIL, and their connections. -/
  | untilRound (sent : List (String × Fd))
  | finish (sent : List (String × Fd))
  deriving DecidableEq

namespace Event

def IsUntil : Event → Prop
  | .untilRound _ => True
  | _ => False

def IsFinish : Event → Prop
  | .finish _ => True
  | _ => False

/-- UNTIL or FINISH is sent. -/
def EndsWait (event : Event) : Prop :=
  event.IsUntil ∨ event.IsFinish

/-- Some message is sent to a device. -/
def IsMessage : Event → Prop
  | .youAre _ => True
  | .untilRound _ => True
  | .finish _ => True
  | _ => False

def IsLeave : Event → Prop
  | .leaves _ => True
  | _ => False

instance : DecidablePred IsUntil := fun event => by
  cases event <;> unfold IsUntil <;> infer_instance

instance : DecidablePred IsMessage := fun event => by
  cases event <;> unfold IsMessage <;> infer_instance

instance : DecidablePred IsFinish := fun event => by
  cases event <;> unfold IsFinish <;> infer_instance

instance : DecidablePred IsLeave := fun event => by
  cases event <;> unfold IsLeave <;> infer_instance

end Event

/-- A READY of the device has been processed after every round so far. -/
def ReadySince (dev : String) (history : List Event) : Prop :=
  ∀ before sent after,
    history = before ++ .untilRound sent :: after → .ready dev ∈ after

/-- What a bus with some devices should live through. -/
structure Lifecycle
    (devices : List String)
    (history : List Event) : Prop where
  /-- The bus is initialized at most once, -/
  initOnce : history.Pairwise fun first later =>
    first = .runInit → later ≠ .runInit
  /-- and before the first UNTIL or FINISH. -/
  initFirst : ∀ before event after,
    history = before ++ event :: after →
    event.EndsWait → .runInit ∈ before
  /-- Between two rounds there is a READY of every device. -/
  lockstep : ∀ before sent between sent' after,
    history =
      before ++ .untilRound sent :: (between ++ .untilRound sent' :: after) →
    ∀ dev ∈ devices, .ready dev ∈ between
  /-- Every round sends one UNTIL to every device. -/
  everyDevice : ∀ sent, .untilRound sent ∈ history →
    sent.map Prod.fst = devices ∧ ∀ entry ∈ sent, entry.2.isSome = true
  /-- There is no round after a device has left, -/
  leaveEnds : history.Pairwise fun first later =>
    first.IsLeave → ¬ later.IsUntil
  /-- and no message of any kind after FINISH. -/
  finishEnds : history.Pairwise fun first later =>
    first.IsFinish → ¬ later.IsMessage

/-! ## Histories grow -/

section

variable {devices : List String}
variable {history : List Event}
variable {event : Event}
variable {dev : String}

/-- A split of a longer history at its last event or before it. -/
theorem split_snoc
    {before after : List Event}
    {here : Event}
    (split : history ++ [event] = before ++ here :: after) :
    (here = event ∧ before = history ∧ after = []) ∨
      ∃ rest, after = rest ++ [event] ∧
        history = before ++ here :: rest := by
  rcases List.eq_nil_or_concat after with rfl | ⟨rest, last, shape⟩
  · left
    have same := List.append_inj' split rfl
    rw [List.cons.injEq] at same
    exact ⟨same.2.1.symm, same.1.symm, rfl⟩
  · right
    rw [List.concat_eq_append] at shape
    subst shape
    rw [← List.cons_append, ← List.append_assoc] at split
    have same := List.append_inj' split rfl
    rw [List.cons.injEq] at same
    exact ⟨rest, by rw [same.2.1], same.1⟩

theorem ReadySince.ready : ReadySince dev (history ++ [.ready dev]) := by
  intro before sent after split
  rcases split_snoc split with ⟨same, _⟩ | ⟨rest, rfl, _⟩
  · cases same
  · exact List.mem_append_right rest (List.mem_singleton_self _)

theorem ReadySince.snoc
    (since : ReadySince dev history)
    (noRound : ¬ event.IsUntil) :
    ReadySince dev (history ++ [event]) := by
  intro before sent after split
  rcases split_snoc split with ⟨rfl, _⟩ | ⟨rest, rfl, same⟩
  · exact (noRound trivial).elim
  · exact List.mem_append_left _ (since before sent rest same)

theorem pairwise_snoc
    {relation : Event → Event → Prop}
    (pairwise : history.Pairwise relation)
    (last : ∀ earlier ∈ history, relation earlier event) :
    (history ++ [event]).Pairwise relation := by
  rw [List.pairwise_append]
  refine ⟨pairwise, List.pairwise_singleton _ _, ?_⟩
  intro earlier member later isLast
  rw [List.mem_singleton] at isLast
  exact isLast ▸ last earlier member

theorem Lifecycle.nil : Lifecycle devices [] where
  initOnce := .nil
  initFirst := by
    intro before event after split
    cases before <;> cases split
  lockstep := by
    intro before sent between sent' after split
    cases before <;> cases split
  everyDevice := by
    intro sent member
    cases member
  leaveEnds := .nil
  finishEnds := .nil

/-- When an event may come next. -/
structure MayFollow
    (devices : List String)
    (history : List Event)
    (event : Event) : Prop where
  runInit : event = .runInit → .runInit ∉ history
  endsWait : event.EndsWait → .runInit ∈ history
  round : ∀ sent, event = .untilRound sent →
    (∀ dev ∈ devices, ReadySince dev history) ∧
      sent.map Prod.fst = devices ∧
      (∀ entry ∈ sent, entry.2.isSome = true) ∧
      ∀ earlier ∈ history, ¬ earlier.IsLeave
  message : event.IsMessage → ∀ earlier ∈ history, ¬ earlier.IsFinish

/-- A proper life goes on. -/
theorem Lifecycle.snoc
    (lifecycle : Lifecycle devices history)
    (mayFollow : MayFollow devices history event) :
    Lifecycle devices (history ++ [event]) where
  initOnce := by
    apply pairwise_snoc lifecycle.initOnce
    rintro earlier member rfl isInit
    exact mayFollow.runInit isInit member
  initFirst := by
    intro before here after split endsWait
    rcases split_snoc split with ⟨rfl, rfl, _⟩ | ⟨rest, _, same⟩
    · exact mayFollow.endsWait endsWait
    · exact lifecycle.initFirst before here rest same endsWait
  lockstep := by
    intro before sent between sent' after split dev member
    rw [← List.cons_append, ← List.append_assoc] at split
    rcases split_snoc split with ⟨isLast, same, _⟩ | ⟨rest, _, same⟩
    · obtain ⟨since, _⟩ := mayFollow.round sent' isLast.symm
      exact since dev member before sent between same.symm
    · rw [List.append_assoc, List.cons_append] at same
      exact lifecycle.lockstep before sent between sent' rest same dev
        member
  everyDevice := by
    intro sent member
    rcases List.mem_append.mp member with earlier | isLast
    · exact lifecycle.everyDevice sent earlier
    · obtain ⟨_, all, connected, _⟩ :=
        mayFollow.round sent (List.mem_singleton.mp isLast).symm
      exact ⟨all, connected⟩
  leaveEnds := by
    apply pairwise_snoc lifecycle.leaveEnds
    intro earlier member leaves isUntil
    cases event with
    | untilRound sent =>
        exact (mayFollow.round sent rfl).2.2.2 earlier member leaves
    | _ =>
        exact isUntil.elim
  finishEnds := by
    apply pairwise_snoc lifecycle.finishEnds
    intro earlier member finished isMessage
    exact mayFollow.message isMessage earlier member finished

end

end Simbus.Service
