import Simbus.Pcie.Client
import Simbus.Clocked.Logic

/-!
# What the receiver leaves alone

Of the data for sending packets, the receiver changes nothing itself.  What it
does to them are the calls of its callbacks and the completions, so it keeps
whatever these keep, in any logic.
-/

namespace Simbus.Pcie

open FourValued Clocked

variable {User : Type}

/-! ## Views of the client -/

/-- The list of packets to send. -/
structure OutQueue where
  tlpOutList : Option Nat
  cells : Ring.Heap Tlp
  cellCount : Nat
  enqueued : List Tlp

/-- The lines to and from the endpoint, as far as packets are sent. -/
structure Lines where
  userClk : Logic4
  rxBeat : Beat
  rxTvalid : Logic4
  rxTready : Logic4
  txTvalid : Logic4
  accepted : List Beat
  fault : Option Fault

namespace SimbusPcieTlp

def outQueue (bus : SimbusPcieTlp User) : OutQueue where
  tlpOutList := bus.tlpOutList
  cells := bus.cells
  cellCount := bus.cellCount
  enqueued := bus.enqueued

def lines (bus : SimbusPcieTlp User) : Lines where
  userClk := bus.userClk
  rxBeat := bus.rxBeat
  rxTvalid := bus.rxTvalid
  rxTready := bus.rxTready
  txTvalid := bus.txTvalid
  accepted := bus.accepted
  fault := bus.fault

end SimbusPcieTlp

/-- The assertions of the receiver, which depend on what the endpoint sends. -/
def Fault.IsReceive : Fault → Prop
  | .bufferFull => True
  | .emptyPacket => True
  | .partialWord => True
  | .completionTaken => True
  | .completionShort => True
  | _ => False

/-! ## Assertions about the sender -/

variable {Value : Type}
variable {logic : Logic (SimbusPcieTlp User) Reply}
variable {holds : Nat → SimbusPcieTlp User → Prop}

/-- An assertion about the sender alone, under which the receiver may fail. -/
structure AboutSender
    (logic : Logic (SimbusPcieTlp User) Reply)
    (holds : Nat → SimbusPcieTlp User → Prop) : Prop where
  quiet : ∀ (step : Nat) (bus bus' : SimbusPcieTlp User), holds step bus →
    bus'.outQueue = bus.outQueue → bus'.lines = bus.lines → holds step bus'
  mayFail : ∀ (step : Nat) (bus : SimbusPcieTlp User) (fault : Fault),
    holds step bus → fault.IsReceive →
    logic.mayFail { bus with fault := some fault }

namespace AboutSender

variable (about : AboutSender logic holds)

include about

theorem modifyState
    {change : SimbusPcieTlp User → SimbusPcieTlp User}
    (sameQueue : ∀ bus, (change bus).outQueue = bus.outQueue)
    (sameLines : ∀ bus, (change bus).lines = bus.lines) :
    logic.Keeps holds (Program.modifyState change) :=
  .modifyState fun step bus before =>
    about.quiet step bus (change bus) before (sameQueue bus) (sameLines bus)

theorem check
    {fault : Fault}
    (receives : fault.IsReceive)
    (condition : SimbusPcieTlp User → Bool) :
    logic.Keeps holds (Pcie.check fault condition) := by
  intro step bus before
  rw [Pcie.check]
  simp only
  split
  · exact logic.finish before
  · exact logic.fail (about.mayFail step bus fault before receives)

theorem crankAll (words : List (BitVec 32)) :
    logic.Keeps holds (crankAll words) := by
  induction words with
  | nil =>
      exact .pure ()
  | cons val rest inductionHypothesis =>
      refine .bind (.bind (about.check (by exact trivial) _) fun _ => ?_)
        fun _ => inductionHypothesis
      exact about.modifyState (fun _ => rfl) fun _ => rfl

theorem copyTlpToCompletion (tag : BitVec 8) (words : Nat) :
    logic.Keeps holds (copyTlpToCompletion tag words) := by
  refine .bind (about.check (by exact trivial) _) fun _ => ?_
  refine .bind (about.check (by exact trivial) _) fun _ => ?_
  exact about.modifyState (fun _ => rfl) fun _ => rfl

variable {send : Tlp → Call User Unit}
variable (keepsSend : ∀ tlp, logic.Keeps holds (callSendTlp send tlp))

include keepsSend

theorem runScript (script : Script User Value) :
    logic.Keeps holds (runScript send script) := by
  induction script with
  | done value =>
      exact .pure value
  | look next inductionHypothesis =>
      exact .getState fun bus => inductionHypothesis bus.user
  | change user next inductionHypothesis =>
      exact .bind (about.modifyState (fun _ => rfl) fun _ => rfl)
        fun _ => inductionHypothesis
  | send tlp next inductionHypothesis =>
      exact .bind (keepsSend tlp) fun _ => inductionHypothesis

theorem recvWrite (first : Nat) (addr : BitVec 64) :
    logic.Keeps holds (recvWrite send first addr) := by
  refine .getState fun bus => ?_
  simp only
  split
  · exact .pure ()
  · refine .bind (about.modifyState (fun _ => rfl) fun _ => rfl)
      fun _ => ?_
    exact .getState fun _ => about.runScript keepsSend _

theorem recvRead (addr : BitVec 64) :
    logic.Keeps holds (recvRead send addr) := by
  refine .getState fun bus => ?_
  simp only
  split
  · exact .pure _
  · exact .bind (about.runScript keepsSend _) fun _ => .pure _

theorem dispatchTlp : logic.Keeps holds (dispatchTlp send) := by
  refine .getState fun bus => ?_
  refine .ite (.bind (about.copyTlpToCompletion _ _) fun _ => .pure _) ?_
  refine .ite (.bind (about.copyTlpToCompletion _ _) fun _ => .pure _) ?_
  refine .ite (.bind (about.recvWrite keepsSend _ _) fun _ => .pure _) ?_
  refine .ite (.bind (about.recvWrite keepsSend _ _) fun _ => .pure _) ?_
  refine .ite (.bind (about.recvRead keepsSend _) fun _ => .pure _) ?_
  refine .ite (.bind (about.recvRead keepsSend _) fun _ => .pure _) ?_
  refine .ite ?_ (.pure _)
  split
  · exact .bind (about.modifyState (fun _ => rfl) fun _ => rfl)
      fun _ => .pure _
  · split
    · exact .bind (about.modifyState (fun _ => rfl) fun _ => rfl)
        fun _ => .pure _
    · exact .pure _

theorem completeRecvTlp : logic.Keeps holds (completeRecvTlp send) := by
  refine .bind (about.check (by exact trivial) _) fun _ => ?_
  refine .bind (about.dispatchTlp keepsSend) fun tlp => ?_
  refine .bind (about.modifyState (fun _ => rfl) fun _ => rfl) fun _ => ?_
  cases tlp with
  | none =>
      exact .pure ()
  | some tlp =>
      exact keepsSend tlp

theorem recvTlp : logic.Keeps holds (pcieTlpRecvTlp send) := by
  refine .getState fun bus => .ite ?_ (.pure ())
  refine .bind (about.crankAll _) fun _ => ?_
  refine .bind (about.check (by exact trivial) _) fun _ => ?_
  exact .ite (about.completeRecvTlp keepsSend) (.pure ())

end AboutSender

/-- Without a transfer of the endpoint the receiver does nothing. -/
theorem recvTlp_idle
    {send : Tlp → Call User Unit}
    {bus : SimbusPcieTlp User}
    (notValid : bus.txTvalid ≠ .one) :
    (pcieTlpRecvTlp send).start bus = .finish () bus := by
  simp [pcieTlpRecvTlp, notValid]

end Simbus.Pcie
