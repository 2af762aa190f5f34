import Simbus.Clocked.Abandoned
import Simbus.P2p.Posedge

/-!
# FINISH on a point-to-point link

The clock waits look at the result of every exchange and return after a FINISH.
-/

namespace Simbus.P2p

open FourValued Axi4 Clocked

section

variable {User : Type}

/-- An UNTIL. -/
def Reply.IsUntil : Reply → Prop
  | .until _ => True
  | .finish => False

/-- The turns of the clock waits: the level before an edge and the one after it. -/
def edgeTurns (before after : Logic4) : Nat → Int → Call User Int
  | 0, rc => return rc
  | cycles + 1, rc => do
      if 0 ≤ rc then
        let rc ← exchangeUntil before rc
        let rc ← exchangeUntil after rc
        edgeTurns before after cycles rc
      else
        return rc

/-- `simbus_p2p_clock_negedge`. -/
def simbusP2pClockNegedge (cycles : Nat) : Call User Int :=
  edgeTurns .one .zero cycles 0

theorem posedgeTurns_eq
    (cycles : Nat)
    (rc : Int) :
    (posedgeTurns cycles rc : Call User Int) =
      edgeTurns .zero .one cycles rc := by
  induction cycles generalizing rc with
  | zero =>
      rfl
  | succ cycles inductionHypothesis =>
      simp only [posedgeTurns, edgeTurns, inductionHypothesis]

theorem sendReadyP2p_takes :
    TakesReply Reply.IsUntil .finish (fun _ => True) (-1)
      (sendReadyP2p : Call User Int) where
  sends := fun _ => rfl
  ended := fun _ => rfl
  taken := by
    intro client _ reply isUntil
    cases reply with
    | «until» message =>
        cases sampled : client.bus.sample message with
        | none =>
            refine .inr ⟨client, ?_⟩
            simp [sendReadyP2p, sampled]
        | some bus =>
            refine .inl ⟨{ client with bus := bus }, ?_, trivial⟩
            simp [sendReadyP2p, sampled]
    | finish =>
        exact isUntil.elim

variable {before after : Logic4}
variable {rc : Int}
variable {client : Client User}

theorem exchangeUntil_heeds
    (level : Logic4)
    (notYet : 0 ≤ rc) :
    AtPoints Reply.IsUntil (Heeds .finish fun rc _ => rc = -1)
      (fun rc _ => 0 ≤ rc) ((exchangeUntil level rc).start client) := by
  have heeds : AtPoints Reply.IsUntil
      (Heeds .finish fun rc _ => rc = -1 ∧ True)
      (fun rc client => 0 ≤ rc ∧ True ∧ ¬ client.bus.clock ≠ level)
      ((testedPoll (fun client : Client User => client.bus.clock ≠ level)
        sendReadyP2p rc).start client) :=
    testedPoll_heeds sendReadyP2p_takes (by decide) trivial notYet
  refine heeds.weaken ?_ fun _ _ reached => reached.1
  rintro rest ⟨value, state, finished, reached⟩
  exact ⟨value, state, finished, reached.1⟩

theorem exchangeUntil_negative
    (level : Logic4)
    (negative : rc < 0) :
    (exchangeUntil level rc).start client = .finish rc client := by
  have done : ¬ (client.bus.clock ≠ level ∧ 0 ≤ rc) := by omega
  have ends : (testedPoll (fun client : Client User =>
      client.bus.clock ≠ level) sendReadyP2p rc).start client =
        .finish rc client := testedPoll_start_done done
  exact ends

theorem edgeTurns_negative
    (cycles : Nat)
    (negative : rc < 0) :
    (edgeTurns before after cycles rc).start client = .finish rc client := by
  cases cycles with
  | zero =>
      rfl
  | succ cycles =>
      rw [edgeTurns, if_neg (Int.not_le.mpr negative)]
      rfl

/-- A FINISH ends a clock wait at once, wherever it comes. -/
theorem edgeTurns_heeds
    (cycles : Nat)
    (notYet : 0 ≤ rc) :
    AtPoints Reply.IsUntil (Heeds .finish fun rc _ => rc = -1)
      (fun rc _ => 0 ≤ rc)
      ((edgeTurns before after cycles rc).start client) := by
  induction cycles generalizing rc client with
  | zero =>
      exact atPoints_finish notYet
  | succ cycles inductionHypothesis =>
      rw [edgeTurns, if_pos notYet]
      refine (exchangeUntil_heeds before notYet).bind ?_ ?_
      · intro rest heeds
        refine heeds.bind ?_
        rintro rc state rfl
        refine ⟨-1, state, ?_, rfl⟩
        rw [Program.start_bind, exchangeUntil_negative after (by decide),
          Behavior.finish_bind, edgeTurns_negative cycles (by decide)]
      · intro rc state notYet
        refine (exchangeUntil_heeds after notYet).bind ?_ ?_
        · intro rest heeds
          refine heeds.bind ?_
          rintro rc state rfl
          exact ⟨-1, state, edgeTurns_negative cycles (by decide), rfl⟩
        · exact fun rc state notYet => inductionHypothesis notYet

theorem simbusP2pClockPosedge_heeds (cycles : Nat) :
    AtPoints Reply.IsUntil (Heeds .finish fun rc _ => rc = -1)
      (fun rc _ => 0 ≤ rc)
      ((simbusP2pClockPosedge cycles).start client) := by
  rw [simbusP2pClockPosedge, posedgeTurns_eq]
  exact edgeTurns_heeds cycles (Int.le_refl 0)

theorem simbusP2pClockNegedge_heeds (cycles : Nat) :
    AtPoints Reply.IsUntil (Heeds .finish fun rc _ => rc = -1)
      (fun rc _ => 0 ≤ rc)
      ((simbusP2pClockNegedge cycles).start client) :=
  edgeTurns_heeds cycles (Int.le_refl 0)

end

end Simbus.P2p
