import Simbus.Axi4.WriteAccess

/-!
# Writes with an id of one bit

A master writes the BID of one bit over AWREADY.  The slave drives a BID of 0,
and so the address of a write stays on the bus for ever.
-/

namespace Simbus.Axi4

open FourValued Clocked

section

variable {User Device : Type}

/-! ## The slave -/

/-- The machine does not change BID. -/
theorem slaveMachine_bid
    {bus : SimbusAxi4 Device}
    {next : Next Device}
    (ran : slaveMachine bus = some next) :
    next.bus.bid = bus.bid ∧ next.bus.widths = bus.widths := by
  simp only [slaveMachine, Option.bind_eq_bind, Option.bind_eq_some_iff,
    Option.some.injEq] at ran
  obtain ⟨written, wrote, requested, read, rfl⟩ := ran
  have address : (Next.start bus).writeAddress.bus.bid = bus.bid ∧
      (Next.start bus).writeAddress.bus.widths = bus.widths := by
    rw [Next.writeAddress]
    split
    · exact ⟨rfl, rfl⟩
    · split
      · exact ⟨rfl, rfl⟩
      · exact ⟨rfl, rfl⟩
  have beat : written.bus.bid = bus.bid ∧
      written.bus.widths = bus.widths := by
    rcases Next.writeBeat_cases wrote with ⟨_, served, _, rfl⟩ | ⟨_, rfl⟩
    · exact address
    · exact address
  have response : written.writeResponse.bus = written.bus := by
    rw [Next.writeResponse]
    split <;> rfl
  have request : requested.bus.bid = bus.bid ∧
      requested.bus.widths = bus.widths := by
    rw [← response] at beat
    rcases Next.readRequest_cases read with
      ⟨_, latch, served, after, rfl, did, rfl⟩ | ⟨_, rfl⟩
    · rw [readData_keeps did]
      exact beat
    · exact beat
  have last : requested.readBeat.bus = requested.bus := by
    rw [Next.readBeat]
    split <;> rfl
  rw [last]
  exact request

/-- The only value of BID is not a 1. -/
def LowBid (bus : SimbusAxi4 Device) : Prop :=
  bus.widths.widWidth = 1 ∧ bus.bid 0 ≠ .one

theorem lowBid_invariant : SlaveInvariant (@LowBid Device) where
  sampled := fun _ _ _ low => low
  reset := fun _ low => ⟨low.1, nofun⟩
  edge := by
    intro bus next low ran
    obtain ⟨bid, widths⟩ := slaveMachine_bid ran
    have finished : next.finish.bid = bus.bid ∧
        next.finish.widths = bus.widths :=
      ⟨bid, widths⟩
    refine ⟨?_, ?_⟩
    · exact (congrArg Widths.widWidth finished.2).trans low.1
    · exact finished.1 ▸ low.2
  stuck := fun _ low _ => low

/-! ## The master -/

/-- The address of a write waits, and is seen to if AWREADY counts. -/
structure Presents (bus : SimbusAxi4 User) : Prop where
  widWidth : bus.widths.widWidth = 1
  awvalid : bus.aw.valid = .one

/-- The address waits and is not accepted. -/
structure Blocked (bus : SimbusAxi4 User) : Prop extends Presents bus where
  awready : bus.awready ≠ .one

/-- After the first edge the address is not accepted. -/
structure Blocks (bus : SimbusAxi4 User) : Prop extends Presents bus where
  later : bus.aclk = .zero → bus.awready ≠ .one

theorem Blocked.blocks
    {bus : SimbusAxi4 User}
    (blocked : Blocked bus) :
    Blocks bus where
  toPresents := blocked.toPresents
  later := fun _ => blocked.awready

/-- A reply whose BID is one value and not a 1. -/
def HasLowBid : MasterReply → Prop
  | .finish => True
  | .until _ text => ∃ value, value ≠ .one ∧ text .bid = [value]

/-- What is reached on such replies. -/
abbrev lowBidLogic : Logic (SimbusAxi4 User) MasterReply :=
  safetyOn HasLowBid Presents fun _ => True

theorem Presents.sampled
    {bus : SimbusAxi4 User}
    {text : SlaveSignal → Text}
    {value : Logic4}
    (presents : Presents bus)
    (aclk : Logic4)
    (lengths : SimbusAxi4.HasLengths
      (SimbusAxi4.slaveLength bus.widths) text)
    (low : value ≠ .one)
    (bid : text .bid = [value]) :
    Blocked (bus.sampleMaster aclk text) := by
  rw [SimbusAxi4.sampleMaster_eq bus aclk text lengths]
  have awready : SimbusAxi4.sampledAwready bus.widths text = value := by
    simp only [SimbusAxi4.sampledAwready, bid, List.getLast?_singleton,
      presents.widWidth, ↓reduceIte]
  exact
    { widWidth := presents.widWidth
      awvalid := presents.awvalid
      awready := awready ▸ low }

/-- An exchange keeps what every accepted reply leads to. -/
theorem lowBid_readyCommand
    {holds : SimbusAxi4 User → Prop}
    (presents : ∀ bus, holds bus → Presents bus)
    (blocked : ∀ bus, Blocked bus → holds bus) :
    (@lowBidLogic User).Keeps (fun _ => holds) axi4ReadyCommand := by
  intro step bus before
  rw [start_axi4ReadyCommand]
  refine safe_await.mpr ⟨presents bus before, fun reply allowed => ?_⟩
  cases reply with
  | finish =>
      exact safe_finish.mpr ⟨step, before⟩
  | «until» aclk text =>
      obtain ⟨value, low, bid⟩ := allowed
      simp only
      split
      · rename_i lengths
        exact safe_finish.mpr ⟨step, blocked _
          ((presents bus before).sampled aclk lengths low bid)⟩
      · exact safe_fail.mpr trivial

theorem lowBid_awaitLevel
    {holds : SimbusAxi4 User → Prop}
    (presents : ∀ bus, holds bus → Presents bus)
    (blocked : ∀ bus, Blocked bus → holds bus)
    (level : Logic4) :
    (@lowBidLogic User).Triple (fun _ => holds) (awaitLevel level)
      fun _ _ bus => holds bus ∧ bus.aclk = level := by
  refine Logic.Triple.weaken
    (safety_whileDo (fun _ => holds) (fun _ _ _ => trivial) ?_)
    (fun _ _ => id) fun _ _ _ reached =>
      ⟨reached.1, by simpa using reached.2⟩
  exact Logic.Triple.bind
    ((lowBid_readyCommand presents blocked).weaken
      (fun _ _ before => before.1) fun _ _ _ => id)
    fun _ => .pure fun _ _ => id

/-- After an edge of the clock the address is not accepted. -/
theorem lowBid_nextPosedge :
    (@lowBidLogic User).Triple (fun _ => Blocks) axi4NextPosedge
      fun _ _ => Blocked := by
  refine Logic.Triple.bind
    (lowBid_awaitLevel (fun _ => Blocks.toPresents) (fun _ => Blocked.blocks)
      .zero) fun _ => ?_
  refine Logic.Triple.weaken
    (lowBid_awaitLevel (fun _ => Blocked.toPresents) (fun _ => id) .one)
    ?_ fun _ _ _ reached => reached.1
  rintro _ bus ⟨blocks, low⟩
  exact { toPresents := blocks.toPresents, awready := blocks.later low }

theorem Blocked.endWriteBeats
    {bus : SimbusAxi4 User}
    (blocked : Blocked bus) :
    Blocked bus.endWriteBeats := by
  have address : ¬ (bus.aw.valid = .one ∧ bus.awready = .one) :=
    fun accepted => blocked.awready accepted.2
  simp only [SimbusAxi4.endWriteBeats, address, ↓reduceIte]
  split
  · exact { blocked with }
  · exact blocked

/-- The turns of `wait_for_resp` go on for ever. -/
theorem lowBid_waitForResp :
    (@lowBidLogic User).Triple (fun _ => Blocks) waitForResp
      fun _ _ _ => False := by
  refine safety_loop (fun _ _ => Blocks) (fun _ _ _ _ => trivial) ?_ _
  rintro ⟨respCode, responseTimer⟩
  refine .getState fun step bus before => ?_
  simp only [before.awvalid, true_or, ↓reduceIte]
  refine Logic.bind _ (lowBid_nextPosedge step bus before) ?_
  intro _ step bus blocked
  have goesOn : Blocks bus.endWriteBeats := blocked.endWriteBeats.blocks
  simp only [Program.start_bind, Program.start_modifyState,
    Program.start_getState, Behavior.finish_bind]
  split
  · refine Logic.finish _ ?_
    exact { goesOn with }
  · split
    · split
      · exact Logic.finish _ goesOn
      · exact Logic.finish _ goesOn
    · exact Logic.finish _ goesOn

/-! ## Both -/

/-- A write on a bus with an id of one bit is never done. -/
theorem write_blocked
    {server : Widths}
    {master : SimbusAxi4 User}
    {slave : SimbusAxi4 Device}
    (masterHigh : master.aclk ≠ .zero)
    (narrow : master.widths.widWidth = 1)
    (awvalid : master.aw.valid = .one)
    (low : LowBid slave) :
    (slaveMeeting server).Halts (waitForResp.start master) slave := by
  constructor
  intro Result next final reaches value state finished
  have master_safe : Safe HasLowBid Presents (fun _ => True)
      (fun _ _ => False) ((waitForResp.start master).bind next) := by
    refine Safe.bind (lowBid_waitForResp 0 master ?_) ?_
    · exact
        { widWidth := narrow
          awvalid := awvalid
          later := fun isLow => (masterHigh isLow).elim }
    · rintro _ _ ⟨_, impossible⟩
      exact impossible.elim
  have slave_safe : Safe (fun _ => True) LowBid LowBid (fun _ _ => False)
      (slaveLoop.start slave) :=
    lowBid_invariant.slaveLoop low
  have safe := Pair.run_safe ?_ master_safe slave_safe reaches
  · rw [finished] at safe
    exact safe_finish.mp safe.1
  · intro phase master slave phase' toMaster toSlave _ isLow answered
    refine ⟨?_, trivial⟩
    simp only [slaveMeeting, answer, runRun, Option.ite_none_right_eq_some,
      Option.some.injEq, Prod.mk.injEq] at answered
    obtain ⟨_, _, rfl, _⟩ := answered
    refine ⟨slave.bid 0, isLow.2, ?_⟩
    simp only [passToMaster, SimbusAxi4.slaveReady, isLow.1]
    rfl

end

end Simbus.Axi4
