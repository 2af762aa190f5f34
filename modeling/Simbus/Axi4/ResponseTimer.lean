import Simbus.Axi4.WriteLanes

/-!
# The response timer of a write

`wait_for_resp` counts the edges at which it waits for a response.  When the time
is over it compares BREADY with 0 where it should drive it to 0, and so it goes
on waiting: without a response it never returns.
-/

namespace Simbus.Axi4

open FourValued Clocked

section

variable {User : Type}

/-! ## What is expected -/

/-- A reply without a response to a write. -/
def MasterReply.Silent : MasterReply → Prop
  | .finish => True
  | .until _ text => decodeBit (text .bvalid) ≠ .one

/-- The rising edges in some replies, when the clock has been low or not. -/
def risingEdges : Bool → List MasterReply → Nat
  | _, [] => 0
  | armed, .finish :: later => risingEdges armed later
  | armed, .until aclk _ :: later =>
      (if armed = true ∧ aclk = .one then 1 else 0) +
        risingEdges
          (decide (aclk = .zero) || (armed && decide (aclk ≠ .one))) later

/-- The replies from one to another. -/
def between (replies : Nat → MasterReply) (first last : Nat) :
    List MasterReply :=
  (List.range' first (last - first)).map replies

/-- After some replies the address and the data of a write have been accepted. -/
def BothAccepted
    (bus : SimbusAxi4 User)
    (replies : Nat → MasterReply)
    (count : Nat)
    (sent : SimbusAxi4 User) : Prop :=
  (waitForResp.start bus).run (between replies 0 count) = .waiting sent ∧
    sent.aw.valid ≠ .one ∧ sent.wvalid ≠ .one

/--
`wait_for_resp` gives up: it returns SLVERR in time after the address and the
data have been accepted.
-/
def GivesUp
    (bus : SimbusAxi4 User)
    (replies : Nat → MasterReply) : Prop :=
  ∃ accepted sent, BothAccepted bus replies accepted sent ∧
    (∀ earlier, earlier < accepted → ∀ before,
      ¬ BothAccepted bus replies earlier before) ∧
    ∃ done final, accepted ≤ done ∧
      (waitForResp.start bus).run (between replies 0 done) =
        .finished .slverr final [] ∧
      (risingEdges (sent.aclk = .zero) (between replies accepted done) : Int) ≤
        axi4RespTimelimit + 1

/-! ## What happens -/

/-- The master is ready for a response. -/
def Ready (bus : SimbusAxi4 User) : Prop :=
  bus.bready = .one

/-- There is no response at an edge. -/
structure Unanswered (bus : SimbusAxi4 User) : Prop where
  ready : Ready bus
  noResponse : bus.aclk = .one → bus.bvalid ≠ .one

/-- What is reached without a response. -/
abbrev silentLogic : Logic (SimbusAxi4 User) MasterReply :=
  safetyOn MasterReply.Silent (fun _ => True) fun _ => True

theorem Ready.sampled
    {bus : SimbusAxi4 User}
    {text : SlaveSignal → Text}
    (ready : Ready bus)
    (aclk : Logic4)
    (lengths : SimbusAxi4.HasLengths
      (SimbusAxi4.slaveLength bus.widths) text)
    (silent : decodeBit (text .bvalid) ≠ .one) :
    Unanswered (bus.sampleMaster aclk text) := by
  rw [SimbusAxi4.sampleMaster_eq bus aclk text lengths]
  exact ⟨ready, fun _ => silent⟩

theorem silent_readyCommand
    {holds : SimbusAxi4 User → Prop}
    (ready : ∀ bus, holds bus → Ready bus)
    (unanswered : ∀ bus, Unanswered bus → holds bus) :
    (@silentLogic User).Keeps (fun _ => holds) axi4ReadyCommand := by
  intro step bus before
  rw [start_axi4ReadyCommand]
  refine safe_await.mpr ⟨trivial, fun reply silent => ?_⟩
  cases reply with
  | finish =>
      exact safe_finish.mpr ⟨step, before⟩
  | «until» aclk text =>
      simp only
      split
      · rename_i lengths
        exact safe_finish.mpr ⟨step, unanswered _
          ((ready bus before).sampled aclk lengths silent)⟩
      · exact safe_fail.mpr trivial

theorem silent_awaitLevel
    {holds : SimbusAxi4 User → Prop}
    (ready : ∀ bus, holds bus → Ready bus)
    (unanswered : ∀ bus, Unanswered bus → holds bus)
    (level : Logic4) :
    (@silentLogic User).Triple (fun _ => holds) (awaitLevel level)
      fun _ _ bus => holds bus ∧ bus.aclk = level := by
  refine Logic.Triple.weaken
    (safety_whileDo (fun _ => holds) (fun _ _ _ => trivial) ?_)
    (fun _ _ => id) fun _ _ _ reached =>
      ⟨reached.1, by simpa using reached.2⟩
  exact Logic.Triple.bind
    ((silent_readyCommand ready unanswered).weaken
      (fun _ _ before => before.1) fun _ _ _ => id)
    fun _ => .pure fun _ _ => id

/-- At an edge there is no response. -/
theorem silent_nextPosedge :
    (@silentLogic User).Triple (fun _ => Ready) axi4NextPosedge
      fun _ _ bus => Ready bus ∧ bus.bvalid ≠ .one := by
  refine Logic.Triple.bind
    (silent_awaitLevel (fun _ => id) (fun _ => Unanswered.ready) .zero)
    fun _ => ?_
  refine Logic.Triple.weaken
    (silent_awaitLevel (fun _ => Unanswered.ready) (fun _ => id) .one) ?_ ?_
  · rintro _ bus ⟨ready, low⟩
    refine ⟨ready, fun high => ?_⟩
    exact nomatch low.symm.trans high
  · rintro _ _ bus ⟨unanswered, high⟩
    exact ⟨unanswered.ready, unanswered.noResponse high⟩

/-- The turns of `wait_for_resp` go on for ever, whatever the timer says. -/
theorem silent_waitForResp :
    (@silentLogic User).Triple (fun _ => Ready) waitForResp
      fun _ _ _ => False := by
  refine safety_loop (fun _ _ => Ready) (fun _ _ _ _ => trivial) ?_ _
  intro locals step bus ready
  rw [start_waitForRespTurn (.inr (.inr ready))]
  refine Logic.bind _ (silent_nextPosedge step bus ready) ?_
  rintro _ later next ⟨stillReady, noResponse⟩
  obtain ⟨_, _, _, bready, bvalid, _⟩ := endWriteBeats_frame next
  refine Logic.finish _ ?_
  have edge : next.endWriteEdge = next.endWriteBeats := by
    rw [SimbusAxi4.endWriteEdge, if_neg]
    rw [bvalid]
    exact fun both => noResponse both.2
  rw [edge]
  exact bready.trans stillReady

/-- Without a response `wait_for_resp` does not return. -/
theorem silent_not_finished
    {bus : SimbusAxi4 User}
    {replies : Nat → MasterReply}
    (ready : bus.bready = .one)
    (silent : ∀ idx, (replies idx).Silent)
    (done : Nat)
    (resp : Resp)
    (final : SimbusAxi4 User)
    (rest : List MasterReply) :
    (waitForResp.start bus).run (between replies 0 done) ≠
      .finished resp final rest := by
  intro finished
  have areSilent : ∀ reply ∈ between replies 0 done, reply.Silent := by
    intro reply member
    obtain ⟨idx, _, rfl⟩ := List.mem_map.mp member
    exact silent idx
  have reached :=
    silent_waitForResp 0 bus ready (between replies 0 done) areSilent
  rw [finished] at reached
  exact reached.elim fun _ impossible => impossible

/-- Without a response `wait_for_resp` never gives up. -/
theorem waitForResp_never_givesUp
    (bus : SimbusAxi4 User)
    (replies : Nat → MasterReply)
    (ready : bus.bready = .one)
    (silent : ∀ idx, (replies idx).Silent) :
    ¬ GivesUp bus replies := by
  rintro ⟨_, _, _, _, done, final, _, finished, _⟩
  exact silent_not_finished ready silent done _ _ _ finished

/-! ## A slave that accepts and does not respond -/

/-- The texts of a slave that drives 1 on AWREADY and WREADY only. -/
def acceptsOnly (widths : Widths) : SlaveSignal → Text
  | .awready | .wready => [.one]
  | signal =>
      List.replicate ((SimbusAxi4.slaveLength widths signal).getD 1) .zero

/-- Its clock falls and rises. -/
def acceptingReplies (widths : Widths) (idx : Nat) : MasterReply :=
  .until (if idx % 2 = 0 then .zero else .one) (acceptsOnly widths)

theorem acceptingReplies_silent (widths : Widths) (idx : Nat) :
    (acceptingReplies widths idx).Silent :=
  nofun

/-- The master waits, and its address and data have been accepted. -/
def acceptedNow
    {Value : Type} :
    Outcome (SimbusAxi4 User) MasterReply Value → Bool
  | .waiting sent => decide (sent.aw.valid ≠ .one ∧ sent.wvalid ≠ .one)
  | .finished _ _ _ | .failed _ => false

/-- A master that has driven a write of a word. -/
def wordDriven : SimbusAxi4 Unit :=
  (masterWithId 4).driveWrite 32 2 0x100 0 (0x12345678 : BitVec 32)

/-- A master on a bus of 32 bits never gives up. -/
theorem waitForResp_never_givesUp_word :
    ¬ GivesUp wordDriven (acceptingReplies wordDriven.widths) :=
  waitForResp_never_givesUp wordDriven _ rfl
    (acceptingReplies_silent wordDriven.widths)

/-- After the first edge all is accepted, but the master does not give up. -/
theorem accepted_not_givesUp :
    acceptedNow ((waitForResp.start wordDriven).run
        (between (acceptingReplies wordDriven.widths) 0 2)) = true ∧
      ¬ GivesUp wordDriven (acceptingReplies wordDriven.widths) := by
  refine ⟨by decide, ?_⟩
  rintro ⟨_, _, _, _, done, final, _, finished, _⟩
  exact silent_not_finished rfl (acceptingReplies_silent wordDriven.widths)
    done _ _ _ finished

end

end Simbus.Axi4
