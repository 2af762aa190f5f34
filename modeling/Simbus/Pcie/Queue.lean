import Simbus.Pcie.Receiver

/-!
# Packets that are sent while another one is

While a packet is clocked out, whatever the receiver does is done at once: it
exchanges no messages, and the packets that it sends go to the end of the
queue.
-/

namespace Simbus.Pcie

open FourValued Clocked

variable {User : Type}

/-! ## The queue -/

namespace OutQueue

/-- The cells of the queue and their packets, first the one that is sent. -/
structure Holds (queue : OutQueue) (items : List (Nat × Tlp)) : Prop where
  circle : Ring.Circle queue.cells queue.tlpOutList items
  allocated : ∀ cell ∈ items.map Prod.fst, cell < queue.cellCount

/-- Packets have been added at the end of a queue that is not empty. -/
def Extends (queue queue' : OutQueue) : Prop :=
  ∃ added : List (Nat × Tlp),
    queue'.enqueued = queue.enqueued ++ added.map Prod.snd ∧
    ∀ items, items ≠ [] → queue.Holds items → queue'.Holds (items ++ added)

variable {queue queue' queue'' : OutQueue}

theorem Extends.refl (queue : OutQueue) : queue.Extends queue :=
  ⟨[], by simp, fun items _ holds => by rwa [List.append_nil]⟩

theorem Extends.trans
    (first : queue.Extends queue')
    (later : queue'.Extends queue'') :
    queue.Extends queue'' := by
  obtain ⟨added, enqueued, holds⟩ := first
  obtain ⟨added', enqueued', holds'⟩ := later
  refine ⟨added ++ added', ?_, ?_⟩
  · rw [enqueued', enqueued, List.map_append, List.append_assoc]
  · intro items nonempty before
    rw [← List.append_assoc]
    exact holds' _ (by simp [nonempty]) (holds items nonempty before)

/-- The queue after a packet in a new cell has been linked in at its end. -/
def push
    (queue : OutQueue)
    (tlp : Tlp)
    (last first : Nat)
    (lastTlp : Tlp) : OutQueue where
  tlpOutList := some queue.cellCount
  cells :=
    Function.update
      (Function.update queue.cells queue.cellCount
        (some { data := tlp, next := first }))
      last (some { data := lastTlp, next := queue.cellCount })
  cellCount := queue.cellCount + 1
  enqueued := queue.enqueued ++ [tlp]

theorem push_extends
    {tlp lastTlp : Tlp}
    {last first : Nat}
    (isList : queue.tlpOutList = some last)
    (isLast : queue.cells last = some { data := lastTlp, next := first }) :
    queue.Extends (queue.push tlp last first lastTlp) := by
  refine ⟨[(queue.cellCount, tlp)], rfl, ?_⟩
  intro items _ holds
  have circle := holds.circle
  rw [isList] at circle
  constructor
  · refine circle.push isLast ?_
    intro member
    exact Nat.lt_irrefl _ (holds.allocated _ member)
  · intro cell member
    rw [List.map_append, List.mem_append] at member
    rcases member with old | new
    · exact Nat.lt_succ_of_lt (holds.allocated cell old)
    · obtain rfl := List.mem_singleton.mp new
      exact Nat.lt_succ_self _

end OutQueue

/-! ## Calls in the middle of a packet -/

/-- Some packet is being sent. -/
def Busy (bus : SimbusPcieTlp User) : Prop :=
  ∃ items, items ≠ [] ∧ bus.outQueue.Holds items

/-- Nothing has happened to the lines, and packets have been added. -/
structure Pushed (bus bus' : SimbusPcieTlp User) : Prop where
  lines : bus'.lines = bus.lines
  queue : bus.outQueue.Extends bus'.outQueue

variable {bus bus' bus'' : SimbusPcieTlp User}
variable {Value : Type}

theorem Pushed.refl (bus : SimbusPcieTlp User) : Pushed bus bus where
  lines := rfl
  queue := .refl _

theorem Pushed.trans
    (first : Pushed bus bus')
    (later : Pushed bus' bus'') :
    Pushed bus bus'' where
  lines := later.lines.trans first.lines
  queue := first.queue.trans later.queue

theorem Pushed.busy
    (pushed : Pushed bus bus')
    (busy : Busy bus) :
    Busy bus' := by
  obtain ⟨items, nonempty, holds⟩ := busy
  obtain ⟨added, _, extended⟩ := pushed.queue
  exact ⟨items ++ added, by simp [nonempty], extended items nonempty holds⟩

/-- A change of other data. -/
theorem Pushed.of_same
    (sameQueue : bus'.outQueue = bus.outQueue)
    (sameLines : bus'.lines = bus.lines) :
    Pushed bus bus' where
  lines := sameLines
  queue := by
    rw [sameQueue]
    exact .refl _

/-- The receiver has failed in the middle of a packet. -/
def ReceiveFailed (bus state : SimbusPcieTlp User) : Prop :=
  ∃ bus' fault, Pushed bus bus' ∧ fault.IsReceive ∧
    state = { bus' with fault := some fault }

/-- Packets are added in the middle of a packet. -/
theorem aboutSender_pushed (bus : SimbusPcieTlp User) :
    AboutSender (Logic.instantly (ReceiveFailed bus))
      (fun _ bus' => Pushed bus bus') where
  quiet := fun _ _ _ pushed sameQueue sameLines =>
    pushed.trans (.of_same sameQueue sameLines)
  mayFail := fun _ bus' fault pushed receives =>
    ⟨bus', fault, pushed, receives, rfl⟩

/-- While a packet is being sent, a program adds packets and is done at once. -/
def Nested (program : Call User Value) : Prop :=
  ∀ bus : SimbusPcieTlp User, Busy bus →
    (Logic.instantly (ReceiveFailed bus)).Keeps
      (fun _ bus' => Pushed bus bus') program

/-- A nested call puts its packet at the end of the queue. -/
theorem nested_sendTlp (stack : Nat) (tlp : Tlp) :
    Nested
      (callSendTlp (pcieTlpSendTlp (stack + 1)) tlp : Call User Unit) := by
  rintro start started step bus pushed
  obtain ⟨items, nonempty, holds⟩ := pushed.busy started
  have circle := holds.circle
  cases items with
  | nil =>
      exact (nonempty rfl).elim
  | cons item rest =>
      obtain ⟨first, firstTlp⟩ := item
      cases isList : bus.tlpOutList with
      | none =>
          have noList : bus.outQueue.tlpOutList = none := isList
          rw [noList] at circle
          cases circle.eq_nil
      | some last =>
          have someList : bus.outQueue.tlpOutList = some last := isList
          rw [someList] at circle
          obtain ⟨front, lastTlp, shape, _, isLast⟩ := circle.last_cell
          have isLast' :
              bus.cells last = some { data := lastTlp, next := first } :=
            isLast
          have apart : last ≠ bus.cellCount := by
            have member :
                last ∈ ((first, firstTlp) :: rest).map Prod.fst := by
              rw [shape]
              simp
            exact Nat.ne_of_lt (holds.allocated last member)
          have outcome :
              (callSendTlp (pcieTlpSendTlp (stack + 1)) tlp).start bus =
                .finish ()
                  { bus with
                    tlpOutList := some bus.cellCount
                    cells :=
                      (bus.outQueue.push tlp last first lastTlp).cells
                    cellCount := bus.cellCount + 1
                    enqueued := bus.enqueued ++ [tlp] } := by
            simp [callSendTlp, pcieTlpSendTlp, sendTlpBody, newCell, readCell,
              setNext, isList, isLast', apart, OutQueue.push, SimbusPcieTlp.outQueue]
          rw [outcome]
          refine (Logic.instantly _).finish (pushed.trans ⟨rfl, ?_⟩)
          exact OutQueue.push_extends someList isLast

end Simbus.Pcie
