import Simbus.Pci.RisingEdge

/-!
# A master and the target it selects

After the address phases a master looks for DEVSEL# at a few edges and then for
TRDY# or STOP#.  The waits are told by what the edges show.
-/

namespace Simbus.Pci

open FourValued Clocked

section

variable {User Handle Value : Type}

/-! ## Edges -/

/--
The edge that shows `bus` or, after these cycles, the edge that shows `last` is the
first one to pass a test.
-/
inductive WaitsUntil (test : BiSignals → Prop) :
    BiSignals → List ClockCycle → BiSignals → Prop where
  | here
      {bus : BiSignals}
      (passed : test bus) :
      WaitsUntil test bus [] bus
  | later
      {bus last : BiSignals}
      {cycle : ClockCycle}
      {cycles : List ClockCycle}
      (missed : ¬ test bus)
      (rest : WaitsUntil test cycle.bus cycles last) :
      WaitsUntil test bus (cycle :: cycles) last

/-- A target has claimed the transaction. -/
def HasDevsel (bus : BiSignals) : Prop :=
  bus.devselN = .zero

/-- A target ends a data phase. -/
def Answered (bus : BiSignals) : Prop :=
  bus.trdyN = .zero ∨ bus.stopN = .zero

variable {test : BiSignals → Prop}
variable {bus last : BiSignals}
variable {cycles : List ClockCycle}
variable {pci : SimbusPci User Handle}

/-- The last edge is what a client sees after the cycles. -/
theorem WaitsUntil.seen
    (waits : WaitsUntil test bus cycles last)
    (isSeen : pci.seen = bus) :
    (pci.clockedAll cycles).seen = last := by
  induction waits generalizing pci with
  | here _ =>
      exact isSeen
  | @later _ _ cycle _ _ _ inductionHypothesis =>
      exact inductionHypothesis (clocked_seen pci cycle)

/-! ## DEVSEL# -/

theorem devselWithin_claimed
    {count : Nat}
    (claimed : WaitsUntil HasDevsel pci.seen cycles last)
    (inTime : cycles.length ≤ count)
    (atEdge : pci.pciClk = .one) :
    EndsAfter (devselWithin count) pci cycles fun found final =>
      found = true ∧ final = pci.clockedAll cycles := by
  generalize isSeen : pci.seen = bus at claimed
  induction claimed generalizing pci count with
  | here passed =>
      have selected : pci.seen.devselN = .zero := isSeen ▸ passed
      cases count with
      | zero =>
          refine .getState (.pure ⟨?_, rfl⟩)
          exact decide_eq_true selected
      | succ count =>
          refine .getState ?_
          rw [if_pos selected]
          exact .pure ⟨rfl, rfl⟩
  | @later _ _ cycle cycles missed _ inductionHypothesis =>
      obtain ⟨count, rfl⟩ : ∃ before, count = before + 1 :=
        ⟨count - 1, by rw [List.length_cons] at inTime; omega⟩
      have unselected : ¬ pci.seen.devselN = .zero := isSeen ▸ missed
      refine .getState ?_
      rw [if_neg unselected]
      exact .clock cycle atEdge (inductionHypothesis
        (Nat.le_of_succ_le_succ inTime) (clocked_pciClk pci cycle)
        (clocked_seen pci cycle))

theorem devselWithin_missed
    (first : ¬ HasDevsel pci.seen)
    (others : ∀ cycle ∈ cycles, ¬ HasDevsel cycle.bus)
    (atEdge : pci.pciClk = .one) :
    EndsAfter (devselWithin cycles.length) pci cycles fun found final =>
      found = false ∧ final = pci.clockedAll cycles := by
  induction cycles generalizing pci with
  | nil =>
      exact .getState (.pure ⟨decide_eq_false first, rfl⟩)
  | cons cycle cycles inductionHypothesis =>
      obtain ⟨now, later⟩ := List.forall_mem_cons.mp others
      have unselected : ¬ pci.seen.devselN = .zero := first
      refine .getState ?_
      rw [if_neg unselected]
      refine .clock cycle atEdge
        (inductionHypothesis ?_ later (clocked_pciClk pci cycle))
      rw [clocked_seen]
      exact now

theorem waitForDevsel_claimed
    (claimed : WaitsUntil HasDevsel pci.seen cycles last)
    (inTime : cycles.length ≤ 3)
    (atEdge : pci.pciClk = .one) :
    EndsAfter waitForDevsel pci cycles fun rc final =>
      rc = 0 ∧ final = acceptAck64 (pci.clockedAll cycles) := by
  have found := devselWithin_claimed claimed inTime atEdge
  rw [← List.append_nil cycles]
  refine .bind found ?_
  rintro _ state ⟨rfl, rfl⟩
  rw [List.append_nil]
  exact .modify (.pure ⟨rfl, rfl⟩)

/-- A client that drives nothing but PAR. -/
def SimbusPci.undriven
    (pci : SimbusPci User Handle) : SimbusPci User Handle :=
  pci.driving fun out =>
    { out with
      frameN := .z
      req64N := .z
      ack64N := .z
      irdyN := .z
      trdyN := .z
      stopN := .z
      devselN := .z
      cBe := fun _ => .z
      ad := fun _ => .z }

/-- Releasing the bus takes a clock. -/
theorem releaseBus_endsAfter
    (atEdge : pci.pciClk = .one)
    (cycle : ClockCycle) :
    EndsAfter releaseBus pci [cycle] fun _ final =>
      final = pci.undriven.clocked cycle :=
  .drive (.lastClock cycle atEdge rfl)

theorem waitForDevsel_missed
    (first : ¬ HasDevsel pci.seen)
    (others : ∀ cycle ∈ cycles, ¬ HasDevsel cycle.bus)
    (counted : cycles.length = 3)
    (atEdge : pci.pciClk = .one) :
    EndsAfter waitForDevsel pci cycles fun rc final =>
      rc = gpciMasterAbort ∧ final = (pci.clockedAll cycles).undriven := by
  have found := devselWithin_missed first others atEdge
  rw [counted] at found
  rw [← List.append_nil cycles]
  refine .bind found ?_
  rintro _ state ⟨rfl, rfl⟩
  rw [List.append_nil]
  exact .drive (.pure ⟨rfl, rfl⟩)

@[simp] theorem acceptAck64_pciClk (pci : SimbusPci User Handle) :
    (acceptAck64 pci).pciClk = pci.pciClk := by
  unfold acceptAck64
  split <;> rfl

@[simp] theorem acceptAck64_seen (pci : SimbusPci User Handle) :
    (acceptAck64 pci).seen = pci.seen := by
  unfold acceptAck64
  split <;> rfl

/-! ## TRDY# and STOP# -/

theorem waitForReadLoop_answered
    {count : Nat}
    (answered : WaitsUntil Answered pci.seen cycles last)
    (inTime : cycles.length < count)
    (atEdge : pci.pciClk = .one) :
    EndsAfter (waitForReadLoop count) pci cycles fun result final =>
      final = pci.clockedAll cycles ∧
        result =
          if last.trdyN = .zero then
            .ok (collectRead final)
          else
            .error gpciTargetRetry := by
  generalize isSeen : pci.seen = bus at answered
  induction answered generalizing pci count with
  | @here bus passed =>
      obtain ⟨count, rfl⟩ : ∃ before, count = before + 1 :=
        ⟨count - 1, by omega⟩
      refine .getState ?_
      rw [isSeen]
      by_cases ready : bus.trdyN = .zero
      · rw [if_neg (not_not.mpr ready)]
        exact .pure ⟨rfl, (if_pos ready).symm⟩
      · have stopped : bus.stopN = .zero := passed.resolve_left ready
        rw [if_pos ready, if_pos stopped]
        exact .pure ⟨rfl, (if_neg ready).symm⟩
  | @later bus _ cycle cycles missed _ inductionHypothesis =>
      obtain ⟨count, rfl⟩ : ∃ before, count = before + 1 :=
        ⟨count - 1, by omega⟩
      obtain ⟨notReady, notStopped⟩ := not_or.mp missed
      refine .getState ?_
      rw [isSeen, if_pos notReady, if_neg notStopped]
      exact .clock cycle atEdge (inductionHypothesis
        (Nat.lt_of_succ_lt_succ inTime) (clocked_pciClk pci cycle)
        (clocked_seen pci cycle))

/-! ## The start of a transaction -/

/-- A master with FRAME# and REQ64# of a transaction, at a level of the clock. -/
structure Framed
    (flag64 : Bool)
    (clk : Logic4)
    (pci : SimbusPci User Handle) : Prop where
  pciClk : pci.pciClk = clk
  frameN : pci.out.frameN = .zero
  req64N : pci.out.req64N = if flag64 then .zero else .one

/-- A master after its address phases. -/
structure Addressed
    (flag64 burst : Bool)
    (clk : Logic4)
    (pci : SimbusPci User Handle) : Prop where
  pciClk : pci.pciClk = clk
  irdyN : pci.out.irdyN = .zero
  req64N : pci.out.req64N = if flag64 then .zero else .one
  frameN : flag64 = true ∨ burst = true → pci.out.frameN = .zero

section Addressing

variable {flag64 : Bool}

/-- A call keeps FRAME# and REQ64#. -/
abbrev KeepsFrame (flag64 : Bool) (call : Call User Handle Value) : Prop :=
  Keeps (clockSeen User Handle) (Framed flag64) call

theorem sendReadyCommand_keepsFrame :
    KeepsFrame flag64 (sendReadyCommand : Call User Handle Int) := by
  intro clk pci framed
  refine meets_await.mpr ⟨trivial, fun reply later advances => ?_⟩
  cases reply with
  | finish =>
      exact meets_finish.mpr ⟨framed.pciClk.trans (Eq.symm advances),
        framed.frameN, framed.req64N⟩
  | «until» signals =>
      exact meets_finish.mpr ⟨Eq.symm advances, framed.frameN, framed.req64N⟩

/-- A change of other outputs. -/
theorem keepsFrame_drive
    {change : BiSignals → BiSignals}
    (sameFrame : ∀ out, (change out).frameN = out.frameN)
    (sameReq64 : ∀ out, (change out).req64N = out.req64N) :
    KeepsFrame flag64 (drive change : Call User Handle Unit) :=
  Triple.modifyState fun _ pci framed =>
    ⟨framed.pciClk, (sameFrame pci.out).trans framed.frameN,
      (sameReq64 pci.out).trans framed.req64N⟩

theorem pciNextPosedge_keepsFrame :
    KeepsFrame flag64 (pciNextPosedge : Call User Handle Unit) := by
  refine Keeps.bind (.whileDo ?_) fun _ => .bind (.whileDo ?_) fun _ => ?_
  · exact Keeps.bind sendReadyCommand_keepsFrame fun _ => .pure _
  · exact Keeps.bind sendReadyCommand_keepsFrame fun _ => .pure _
  · exact Triple.modifyState fun _ _ framed =>
      ⟨framed.pciClk, framed.frameN, framed.req64N⟩

theorem attributePhase_keepsFrame (ben : BitVec 32) :
    KeepsFrame flag64 (attributePhase ben : Call User Handle Unit) := by
  refine Keeps.getState fun _ _ _ => Triple.ite (fun _ => ?_) fun _ =>
    Keeps.pure _
  refine Keeps.getState fun _ _ _ => ?_
  refine Keeps.bind (keepsFrame_drive ?_ ?_) fun _ => ?_
  · exact fun _ => rfl
  · exact fun _ => rfl
  refine Keeps.bind (keepsFrame_drive ?_ ?_) fun _ => ?_
  · exact fun _ => rfl
  · exact fun _ => rfl
  refine Keeps.bind pciNextPosedge_keepsFrame fun _ => ?_
  refine Keeps.bind (keepsFrame_drive ?_ ?_) fun _ => ?_
  · exact fun _ => rfl
  · exact fun _ => rfl
  exact pciNextPosedge_keepsFrame

theorem startData_addressed
    {burst : Bool}
    {clk : Logic4}
    (framed : Framed flag64 clk pci) :
    Addressed flag64 burst clk (startData burst pci) where
  pciClk := framed.pciClk
  irdyN := rfl
  req64N := framed.req64N
  frameN := by
    intro either
    have stays : ¬ (pci.out.req64N ≠ .zero ∧ burst = false ∧
        ¬ pcixMode pci = true) := by
      rintro ⟨not64, notBurst, _⟩
      rcases either with is64 | isBurst
      · exact not64 (by rw [framed.req64N, if_pos is64])
      · rw [isBurst] at notBurst
        cases notBurst
    exact (if_neg stays).trans framed.frameN

theorem addressCommand_addresses
    (addr : BitVec 64)
    (cmd ben : BitVec 32)
    (burst : Bool) :
    Triple (clockSeen User Handle) (fun clk pci => pci.pciClk = clk)
      (addressCommand addr cmd ben flag64 burst)
      fun _ => Addressed flag64 burst := by
  have starts : Triple (clockSeen User Handle) (fun clk pci => pci.pciClk = clk)
      (drive (startFrame flag64)) fun _ => Framed flag64 :=
    Triple.modifyState fun _ _ knows => ⟨knows, rfl, rfl⟩
  have ends : Triple (clockSeen User Handle) (Framed flag64)
      (Program.modifyState (startData burst))
      fun _ => Addressed flag64 burst :=
    Triple.modifyState fun _ _ framed => startData_addressed framed
  have dual : KeepsFrame flag64
      (dualAddressPhase ((addr >>> 32).setWidth 32) : Call User Handle Unit) := by
    refine Triple.ite (fun _ => ?_) fun _ =>
    Keeps.pure _
    refine Keeps.bind (keepsFrame_drive ?_ ?_) fun _ => ?_
    · exact fun _ => rfl
    · exact fun _ => rfl
    refine Keeps.bind pciNextPosedge_keepsFrame fun _ => ?_
    exact keepsFrame_drive (fun _ => rfl) fun _ => rfl
  refine Triple.bind starts fun _ =>
    Triple.bind (keepsFrame_drive ?_ ?_) fun _ => ?_
  · intro out
    unfold driveAddr
    split <;> rfl
  · intro out
    unfold driveAddr
    split <;> rfl
  refine Triple.bind dual fun _ =>
    Triple.bind (keepsFrame_drive ?_ ?_) fun _ => ?_
  · exact fun _ => rfl
  · exact fun _ => rfl
  refine Triple.bind pciNextPosedge_keepsFrame fun _ => ?_
  exact Triple.bind (attributePhase_keepsFrame ben) fun _ => ends

/-- What a client drives at the end of its address phases. -/
theorem ClockRun.addressed
    {callbacks : Callbacks User Handle}
    {stack : Nat}
    {addr : BitVec 64}
    {cmd ben : BitVec 32}
    {burst : Bool}
    {final : SimbusPci User Handle}
    {outs : List BiSignals}
    (run : ClockRun
      ((startTransaction callbacks stack addr cmd ben flag64 burst).start pci)
      cycles outs () final)
    (atEdge : pci.pciClk = .one) :
    Addressed flag64 burst .one final := by
  have starts : Triple (clockSeen User Handle) (fun clk pci => pci.pciClk = clk)
      (startTransaction callbacks stack addr cmd ben flag64 burst)
      fun _ => Addressed flag64 burst := by
    refine Triple.bind (pciRequestBus_followsClock callbacks stack) fun _ => ?_
    exact Triple.bind (FollowsClock.unseen fun _ => rfl) fun _ =>
      addressCommand_addresses addr cmd ben burst
  exact run.establishes (starts .one pci atEdge)

end Addressing

/-! ## A granted bus -/

/-- A clock of a granted conventional bus with an edge that shows `bus`. -/
def grantedClock (bus : BiSignals) : ClockCycle :=
  let signals (pciClk : Logic4) : SendSignals :=
    { pciClk := pciClk
      pcixcap := .zero
      gntN := .zero
      idsel := .z
      resetN := none
      intN := none
      bi := bus }
  { high := []
    low := [signals .zero]
    edge := signals .one
    isHigh := noSignals_high
    isLow := List.forall_mem_singleton.mpr rfl
    falls := List.cons_ne_nil _ _
    rises := rfl }

/-- A client after an edge of such a bus. -/
def readyMaster : SimbusPci Unit Unit :=
  { SimbusPci.init 1 (fun _ => 0) () with
    pciClk := .one
    pcixcap := .zero
    pciGntN := .zero
    seen := BiSignals.released }

theorem readyMaster_ready : ¬ busNotReady readyMaster := by
  decide

/-- On a conventional bus a short address takes one clock. -/
theorem addressCommand_granted
    (addr : BitVec 64)
    (cmd ben : BitVec 32)
    (flag64 burst : Bool)
    (bus : BiSignals)
    (short : (addr >>> 32).setWidth 32 = (0 : BitVec 32))
    (atEdge : pci.pciClk = .one) :
    EndsAfter (addressCommand addr cmd ben flag64 burst) pci
      [grantedClock bus] fun _ final => final.seen = bus := by
  let framed := firstAddress addr (cmd.setWidth 4) flag64 pci
  have framedEdge : framed.pciClk = .one := atEdge
  have conventional : (framed.clocked (grantedClock bus)).pcixcap ≠ .one := by
    rw [clocked_pcixcap]
    exact (nofun : Logic4.zero ≠ .one)
  have ends : ClockRun
      ((endAddress ben burst).start (framed.clocked (grantedClock bus))) [] [] ()
      (startData burst (framed.clocked (grantedClock bus))) :=
    .done (endAddress_start conventional ben burst)
  refine ⟨[framed.out], (), startData burst (framed.clocked (grantedClock bus)),
    ?_, clocked_seen framed (grantedClock bus)⟩
  rw [addressCommand_single cmd ben flag64 burst short]
  exact .posedge_bind framedEdge ends

/-- A master of a granted bus puts its address on it at once. -/
theorem startTransaction_granted
    (callbacks : Callbacks User Handle)
    (stack : Nat)
    (addr : BitVec 64)
    (cmd ben : BitVec 32)
    (flag64 burst : Bool)
    (bus : BiSignals)
    (short : (addr >>> 32).setWidth 32 = (0 : BitVec 32))
    (ready : ¬ busNotReady pci)
    (atEdge : pci.pciClk = .one) :
    EndsAfter (startTransaction callbacks (stack + 1) addr cmd ben flag64 burst)
      pci [grantedClock bus] fun _ addressed => addressed.seen = bus := by
  have requested : EndsAfter (pciRequestBus callbacks (stack + 1)) pci []
      fun _ state => state.pciClk = .one := by
    rw [pciRequestBus]
    exact ⟨[], (), _, .done (requestBusWith_granted ready _), atEdge⟩
  rw [← List.nil_append [grantedClock bus]]
  refine requested.bind fun _ state stateEdge => .modify ?_
  exact addressCommand_granted addr cmd ben flag64 burst bus short stateEdge

end

end Simbus.Pci
