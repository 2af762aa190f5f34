import Simbus.Pci.TargetEtiquette

/-!
# The etiquette of a master

Every operation of the library starts and ends with the bus released, and
keeps to the etiquette in between: it requests, waits for the grant on an idle
bus, and drives FRAME# and IRDY# from the address phase on until it releases
them.
-/

namespace Simbus.Pci

open FourValued Clocked PciProtocol

namespace Drive

/-- The address phase. -/
def addressing : Drive := ⟨.one, .zero, .one⟩

theorem addressing_owns : addressing.Owns where
  reqN := rfl
  holds := .inl rfl

end Drive

/-! ## Assertions -/

/--
FRAME# and IRDY# are released, and the client may go on like this.  Either it
is at an edge or it has not received anything yet.
-/
structure Resting
    (reqN : Logic4)
    (manners : Manners)
    (stance : Stance) : Prop where
  phase : manners.phase = 0
  shows : stance.drive = .quiet reqN
  next : manners.Next (.quiet reqN)
  released : manners.shown ≠ .releasing
  clock :
    AtEdge manners stance ∨
      (stance.pciClk = .x ∧ stance.pciGntN ≠ .zero)

/-- The client may start a transaction. -/
structure MayDrive (manners : Manners) (stance : Stance) : Prop where
  atEdge : AtEdge manners stance
  shows : stance.drive = .idle
  next : ∀ drive : Drive,
    drive.Owns → drive.frameN = .zero → manners.Next drive
  released : manners.shown ≠ .releasing

/-- A transaction is under way and IRDY# is driven to 0. -/
structure DataPhase (manners : Manners) (stance : Stance) : Prop where
  atEdge : AtEdge manners stance
  owned : manners.shown.Owns
  reqN : stance.drive.reqN = .one
  irdyN : stance.drive.irdyN = .zero

section

variable {reqN : Logic4}
variable {manners : Manners}
variable {stance : Stance}

theorem Passive.resting
    (passive : Passive (.quiet reqN) manners stance) :
    Resting reqN manners stance where
  phase := passive.atEdge.phase
  shows := passive.shows
  next := passive.next
  released := passive.released
  clock := .inl passive.atEdge

/-- A client that rests may request the bus. -/
theorem Resting.canRequest
    (resting : Resting .one manners stance) :
    manners.Next .requesting := by
  have next := resting.next
  have released := resting.released
  generalize shape : Drive.quiet .one = drive at next
  cases next with
  | rest idle =>
      exact .request idle
  | request _ =>
      cases shape
  | wait _ =>
      cases shape
  | start _ starts =>
      subst shape
      cases starts.frames
  | proceed owns _ =>
      exact .proceed owns .requesting
  | settle releasing =>
      exact (released releasing).elim

/-- A client that requests may start once the bus is granted and idle. -/
theorem Passive.canStart
    (passive : Passive .requesting manners stance)
    (mayStart : manners.MayStart)
    {drive : Drive}
    (owns : drive.Owns)
    (frames : drive.frameN = .zero) :
    manners.Next drive := by
  have next := passive.next
  have starts : manners.Starts drive := ⟨mayStart, owns, frames⟩
  generalize shape : Drive.requesting = before at next
  cases next with
  | rest _ =>
      cases shape
  | request idle =>
      exact .start (.inl idle) starts
  | wait requesting =>
      exact .start (.inr requesting) starts
  | start quiet _ =>
      exact .start quiet starts
  | proceed owned _ =>
      exact .proceed owned (.owns owns)
  | settle _ =>
      cases shape

theorem DataPhase.owns
    (phase : DataPhase manners stance) :
    stance.drive.Owns where
  reqN := phase.reqN
  holds := .inr phase.irdyN

end

section

variable {User Handle : Type}

/-! ## Waiting -/

/-- Wait for the clock to fall, at an edge or before anything was received. -/
theorem exchangeUntilLow_ensures
    (reqN : Logic4) :
    Ensures (Resting reqN)
      (exchangeWhileClk (fun clk => clk ≠ .zero) 0 : Call User Handle Int)
      fun rc manners stance =>
        rc = 0 ∧ SecondHalf (.quiet reqN) manners stance := by
  have falls : ∀ level : Logic4, level ≠ .zero →
      Ensures
        (fun manners stance =>
          Resting reqN manners stance ∧ stance.pciClk = level)
        (exchangeWhileClk (fun clk => clk ≠ .zero) 0 :
          Call User Handle Int)
        fun rc manners stance =>
          rc = 0 ∧ SecondHalf (.quiet reqN) manners stance := by
    intro level high
    apply (exchangeWhileClk_ensures (fun clk => clk ≠ .zero)
      (FirstHalf level (.quiet reqN))
      (sendReadyCommand_firstHalf level (.quiet reqN)
        (fun clk => clk ≠ .zero) rfl)).weaken
    · rintro manners stance ⟨resting, clock⟩
      refine ⟨resting.shows, ?_, .inl ⟨resting.phase, clock⟩⟩
      rw [Manners.Allows, if_pos resting.phase]
      exact resting.next
    · rintro rc manners stance ⟨zero, half, ends⟩
      exact ⟨zero, half.fallen (fun clk => clk ≠ .zero)
        (by simpa using high) rfl ends⟩
  intro manners pci resting
  rcases resting.clock with atEdge | ⟨fresh, _⟩
  · refine falls .one (by decide) manners pci ⟨resting, ?_⟩
    rw [atEdge.synced.pciClk, atEdge.phase]
    rfl
  · exact falls .x (by decide) manners pci ⟨resting, fresh⟩

/-- Wait for the clock to rise. -/
theorem exchangeUntilHigh_ensures
    (drive : Drive)
    (rc : Int) :
    Ensures
      (fun manners stance => rc = 0 ∧ SecondHalf drive manners stance)
      (exchangeWhileClk (fun clk => clk ≠ .one) rc : Call User Handle Int)
      fun _ => NextEdge drive := by
  rintro manners pci ⟨rfl, half⟩
  refine Ensures.weaken (exchangeWhileClk_ensures (fun clk => clk ≠ .one)
    (SecondHalf drive)
    (sendReadyCommand_secondHalf drive (fun clk => clk ≠ .one) rfl))
    (fun _ _ before => before) ?_ manners pci half
  rintro _ _ _ ⟨_, half, ends⟩
  exact half.risen (fun clk => clk ≠ .one) rfl ends

variable {stateMachine : Call User Handle Unit}
variable {reqN : Logic4}

theorem waitLoop_ensures
    (stays : (Drive.quiet reqN).Stays)
    (leavesAlone : LeavesAlone (.quiet reqN) stateMachine)
    (useIrq : BitVec 64)
    (clks : Nat)
    (mask : BitVec 64) :
    Maintains (Resting reqN) (waitLoop stateMachine useIrq clks mask) := by
  induction clks generalizing mask with
  | zero =>
      exact .pure _
  | succ clks inductionHypothesis =>
      refine .ite (fun _ => .pure _) fun _ => ?_
      refine Ensures.bind _ (exchangeUntilLow_ensures reqN) fun rc => ?_
      refine Ensures.bind _ (exchangeUntilHigh_ensures (.quiet reqN) rc)
        fun rc => ?_
      refine Ensures.ite (fun _ => ?_) fun _ => ?_
      · exact Ensures.pure fun _ _ edge => (edge.passive stays).resting
      · refine Ensures.bind (fun _ => Passive (.quiet reqN)) ?_ fun _ => ?_
        · exact Ensures.weaken leavesAlone
            (fun _ _ edge => edge.passive stays) fun _ _ _ after => after
        · refine Ensures.weaken ?_
            (fun _ _ passive => passive.resting) fun _ _ _ after => after
          refine Maintains.getState fun pci _ _ => ?_
          exact .ite (fun _ => .pure _) fun _ => inductionHypothesis _

/-- Waiting leaves the client as it rests. -/
theorem simbusPciWaitWith_ensures
    (stays : (Drive.quiet reqN).Stays)
    (leavesAlone : LeavesAlone (.quiet reqN) stateMachine)
    (clks : Nat)
    (irq : Option (BitVec 64)) :
    Maintains (Resting reqN) (simbusPciWaitWith stateMachine clks irq) := by
  refine .ite (fun _ => .getState fun pci _ _ => .pure _) fun _ => ?_
  refine .bind (.unseen fun _ => rfl) fun _ => ?_
  refine .bind (waitLoop_ensures stays leavesAlone _ clks 0) fun outcome => ?_
  cases outcome <;> exact .pure _

/-! ## Requesting the bus -/

theorem requestLoop_ensures
    (leavesAlone : LeavesAlone .requesting stateMachine)
    (count : Nat) :
    Ensures (Resting .zero) (requestLoop stateMachine count)
      fun _ manners stance =>
        Passive .requesting manners stance ∧ manners.MayStart := by
  induction count with
  | zero =>
      exact .abort
  | succ count inductionHypothesis =>
      refine Ensures.getState fun pci => Ensures.ite (fun _ => ?_) ?_
      · refine Ensures.bind (fun _ => Resting .zero) ?_
          fun _ => inductionHypothesis
        exact Ensures.weaken
          (simbusPciWaitWith_ensures Drive.requesting_stays leavesAlone
            1 none)
          (fun _ _ before => before.1) fun _ _ _ after => after
      · intro ready
        apply Ensures.pure
        rintro manners _ ⟨resting, rfl⟩
        simp only [busNotReady, not_or, not_not] at ready
        obtain ⟨granted, frameIdle, irdyIdle⟩ := ready
        rcases resting.clock with atEdge | ⟨_, notGranted⟩
        · refine ⟨⟨atEdge, resting.shows, resting.next,
            resting.released⟩, ?_, ?_, ?_⟩
          · exact atEdge.synced.pciGntN.symm.trans granted
          · exact atEdge.synced.frameN ▸ frameIdle
          · exact atEdge.synced.irdyN ▸ irdyIdle
        · exact (notGranted granted).elim

theorem requestBusWith_ensures
    (leavesAlone : LeavesAlone .requesting stateMachine) :
    Ensures (Resting .one) (requestBusWith stateMachine)
      fun _ => MayDrive := by
  refine Ensures.bind (fun _ => Resting .zero) ?_ fun _ => ?_
  · apply Ensures.modifyState
    intro manners pci resting
    exact
      { phase := resting.phase
        shows := congrArg
          (fun drive : Drive => { drive with reqN := .zero })
          resting.shows
        next := resting.canRequest
        released := resting.released
        clock := resting.clock.imp_left fun atEdge =>
          ⟨atEdge.synced.congr, atEdge.phase⟩ }
  · refine Ensures.bind _ (requestLoop_ensures leavesAlone requestCount)
      fun _ => ?_
    apply Ensures.modifyState
    rintro manners pci ⟨passive, mayStart⟩
    exact
      { atEdge := ⟨passive.atEdge.synced.congr, passive.atEdge.phase⟩
        shows := congrArg
          (fun drive : Drive => { drive with reqN := .one })
          passive.shows
        next := fun _ => passive.canStart mayStart
        released := passive.released }

theorem pciRequestBus_ensures
    (callbacks : Callbacks User Handle)
    (stack : Nat) :
    Ensures (Resting .one) (pciRequestBus callbacks stack)
      fun _ => MayDrive := by
  cases stack with
  | zero =>
      exact .abort
  | succ stack =>
      exact requestBusWith_ensures
        (pciTargetStateMachine_leavesAlone callbacks
          Drive.requesting_stays _)

/-! ## The address phase -/

theorem dualAddressPhase_leavesAlone
    (addrHigh : BitVec 32) :
    LeavesAlone .addressing
      (dualAddressPhase addrHigh : Call User Handle Unit) := by
  refine .ite (fun _ => ?_) fun _ => .pure ()
  refine .bind (.unseen fun _ => rfl) fun _ => ?_
  refine .bind (pciNextPosedge_leavesAlone Drive.addressing_owns.stays)
    fun _ => ?_
  exact .unseen fun _ => rfl

/-- The address phase ends with IRDY# driven to 0. -/
theorem addressCommand_ensures
    (addr : BitVec 64)
    (cmd ben : BitVec 32)
    (flag64 burst : Bool) :
    Ensures MayDrive
      (addressCommand addr cmd ben flag64 burst : Call User Handle Unit)
      fun _ => DataPhase := by
  refine Ensures.bind (fun _ => Passive .addressing) ?_ fun _ => ?_
  · apply Ensures.modifyState
    intro manners pci mayDrive
    exact
      { atEdge := ⟨mayDrive.atEdge.synced.congr, mayDrive.atEdge.phase⟩
        shows := congrArg
          (fun drive : Drive => (⟨drive.reqN, .zero, .one⟩ : Drive))
          mayDrive.shows
        next := mayDrive.next _ Drive.addressing_owns rfl
        released := mayDrive.released }
  refine Ensures.bind (fun _ => Passive .addressing) ?_ fun _ => ?_
  · refine Maintains.unseen fun pci => ?_
    simp only [driveAddr]
    split <;> rfl
  refine Ensures.bind (fun _ => Passive .addressing)
    (dualAddressPhase_leavesAlone _) fun _ => ?_
  refine Ensures.bind (fun _ => Passive .addressing)
    (Maintains.unseen fun _ => rfl) fun _ => ?_
  refine Ensures.bind (fun _ => NextEdge .addressing) ?_ fun _ => ?_
  · exact (pciNextPosedge_ensures .addressing).weaken
      (fun _ _ passive => ⟨passive.atEdge, passive.shows, passive.next⟩)
      fun _ _ _ after => after
  refine Ensures.bind (fun _ => NextEdge .addressing) ?_ fun _ => ?_
  · exact Maintains.getState fun pci _ edge =>
      .unlessPcix edge.atEdge.conventional (.pure ())
  · apply Ensures.modifyState
    intro manners pci edge
    exact
      { atEdge := ⟨edge.atEdge.synced.congr, edge.atEdge.phase⟩
        owned := edge.shown ▸ Drive.addressing_owns
        reqN := congrArg Drive.reqN edge.shows
        irdyN := rfl }

/-! ## The data phases -/

theorem pciNextPosedge_dataPhase :
    Maintains DataPhase (pciNextPosedge : Call User Handle Unit) := by
  intro manners pci phase
  have next : manners.Next pci.stance.drive :=
    .proceed phase.owned (.owns phase.owns)
  refine Ensures.weaken (pciNextPosedge_ensures pci.stance.drive)
    (fun _ _ before => before) ?_ manners pci ⟨phase.atEdge, rfl, next⟩
  intro _ after sampled edge
  exact
    { atEdge := edge.atEdge
      owned := edge.shown ▸ phase.owns
      reqN := edge.shows ▸ phase.reqN
      irdyN := edge.shows ▸ phase.irdyN }

theorem pciNextPosedgeUntilTrdy_dataPhase :
    Maintains DataPhase
      (pciNextPosedgeUntilTrdy : Call User Handle Unit) :=
  .whileDo pciNextPosedge_dataPhase

/-- FRAME# may change in the data phases, unlike REQ# and IRDY#. -/
theorem modifyState_dataPhase
    {change : SimbusPci User Handle → SimbusPci User Handle}
    (same : ∀ pci,
      (change pci).stance =
        { pci.stance with
          drive :=
            { pci.stance.drive with
              frameN := (change pci).stance.drive.frameN } }) :
    Maintains DataPhase (Program.modifyState change) := by
  apply Maintains.modifyState
  intro manners pci phase
  rw [same pci]
  exact
    { atEdge := ⟨phase.atEdge.synced.congr, phase.atEdge.phase⟩
      owned := phase.owned
      reqN := phase.reqN
      irdyN := phase.irdyN }

theorem setupForWrite_dataPhase
    (val : BitVec 64)
    (ben : BitVec 32)
    (flag64 : Bool) :
    Maintains DataPhase
      (setupForWrite val ben flag64 : Call User Handle Unit) := by
  refine .bind (.unseen fun pci => ?_) fun _ => pciNextPosedge_dataPhase
  simp only [writeDrive]
  split <;> rfl

theorem devselWithin_dataPhase
    (clks : Nat) :
    Maintains DataPhase (devselWithin clks : Call User Handle Bool) := by
  induction clks with
  | zero =>
      exact .getState fun pci _ _ => .pure _
  | succ clks inductionHypothesis =>
      refine .getState fun pci _ _ => .ite (fun _ => .pure _) fun _ => ?_
      exact .bind pciNextPosedge_dataPhase fun _ => inductionHypothesis

theorem waitForReadLoop_dataPhase
    (count : Nat) :
    Maintains DataPhase
      (waitForReadLoop count : Call User Handle (Except Int ReadWord)) := by
  induction count with
  | zero =>
      exact .abort
  | succ count inductionHypothesis =>
      refine .getState fun pci _ _ => .ite (fun _ => ?_) fun _ => .pure _
      refine .ite (fun _ => .pure _) fun _ => ?_
      exact .bind pciNextPosedge_dataPhase fun _ => inductionHypothesis

theorem waitForRead_dataPhase :
    Maintains DataPhase
      (waitForRead : Call User Handle (Except Int ReadWord)) :=
  waitForReadLoop_dataPhase 256

/-! ## Releasing the bus -/

theorem undriveBus_ensures :
    Ensures DataPhase (undriveBus : Call User Handle Unit)
      fun _ => Passive .idle := by
  apply Ensures.modifyState
  intro manners pci phase
  have request : pci.outReqN = .one := phase.reqN
  exact
    { atEdge := ⟨phase.atEdge.synced.congr, phase.atEdge.phase⟩
      shows := congrArg Drive.quiet request
      next := .proceed phase.owned .idle
      released := by
        intro releasing
        rcases phase.owned.holds with frames | readies
        · rw [releasing] at frames
          cases frames
        · rw [releasing] at readies
          cases readies }

/-- The transaction is over once the bus is released for a clock. -/
theorem releaseBus_ensures :
    Ensures DataPhase (releaseBus : Call User Handle Unit)
      fun _ => Passive .idle :=
  Ensures.bind _ undriveBus_ensures fun _ =>
    pciNextPosedge_leavesAlone Drive.idle_stays

/-- After a burst FRAME# and IRDY# may have been driven to 1 already. -/
theorem releaseBus_afterBurst :
    Ensures
      (fun manners stance =>
        DataPhase manners stance ∨ NextEdge .releasing manners stance)
      (releaseBus : Call User Handle Unit)
      fun _ => Passive .idle := by
  have settles :
      Ensures (NextEdge .releasing) (releaseBus : Call User Handle Unit)
        fun _ => Passive .idle := by
    refine Ensures.bind
      (fun _ manners stance =>
        AtEdge manners stance ∧ stance.drive = .idle ∧
          manners.Next .idle) ?_ fun _ => ?_
    · apply Ensures.modifyState
      intro manners pci edge
      refine ⟨⟨edge.atEdge.synced.congr, edge.atEdge.phase⟩, ?_,
        .settle edge.shown⟩
      exact congrArg (fun drive : Drive => Drive.quiet drive.reqN)
        edge.shows
    · exact (pciNextPosedge_ensures .idle).weaken
        (fun _ _ before => before)
        fun _ _ _ edge => edge.passive Drive.idle_stays
  intro manners pci before
  rcases before with phase | edge
  · exact releaseBus_ensures manners pci phase
  · exact settles manners pci edge

/-- No response releases the bus, any other keeps the transaction going. -/
theorem waitForDevsel_ensures :
    Ensures DataPhase (waitForDevsel : Call User Handle Int)
      fun rc manners stance =>
        (rc < 0 → Passive .idle manners stance) ∧
          (¬ rc < 0 → DataPhase manners stance) := by
  refine Ensures.bind _ (devselWithin_dataPhase 3) fun found => ?_
  refine Ensures.ite (fun _ => ?_) fun _ => ?_
  · refine Ensures.bind (fun _ => DataPhase) ?_ fun _ => ?_
    · refine modifyState_dataPhase fun pci => ?_
      simp only [acceptAck64]
      split <;> rfl
    · exact Ensures.pure fun _ _ phase =>
        ⟨fun negative => (lt_irrefl 0 negative).elim, fun _ => phase⟩
  · refine Ensures.bind _ undriveBus_ensures fun _ => ?_
    exact Ensures.pure fun _ _ passive =>
      ⟨fun _ => passive, fun notAborted =>
        (notAborted (by decide)).elim⟩

/-! ## Transactions -/

variable (callbacks : Callbacks User Handle)
variable (stack : Nat)

theorem startTransaction_ensures
    (addr : BitVec 64)
    (cmd ben : BitVec 32)
    (flag64 burst : Bool) :
    Ensures (Resting .one)
      (startTransaction callbacks stack addr cmd ben flag64 burst)
      fun _ => DataPhase := by
  refine Ensures.bind _ (pciRequestBus_ensures callbacks stack) fun _ => ?_
  refine Ensures.bind (fun _ => MayDrive) ?_
    fun _ => addressCommand_ensures addr cmd ben flag64 burst
  apply Ensures.modifyState
  intro manners pci mayDrive
  exact
    { atEdge := ⟨mayDrive.atEdge.synced.congr, mayDrive.atEdge.phase⟩
      shows := congrArg (fun drive : Drive => { drive with reqN := .one })
        mayDrive.shows
      next := mayDrive.next
      released := mayDrive.released }

theorem genericPciRead32_ensures
    (addr : BitVec 64)
    (cmd ben resultx : BitVec 32) :
    Maintains (Resting .one)
      (genericPciRead32 callbacks stack addr cmd ben resultx) := by
  refine Ensures.bind _
    (startTransaction_ensures callbacks stack addr cmd ben false false)
    fun _ => ?_
  refine Ensures.bind (fun _ => DataPhase) (Maintains.unseen fun _ => rfl)
    fun _ => ?_
  refine Ensures.bind (fun _ => DataPhase) pciNextPosedge_dataPhase
    fun _ => ?_
  refine Ensures.bind _ waitForDevsel_ensures fun rc => ?_
  refine Ensures.ite (fun aborted => ?_) fun answered => ?_
  · refine Ensures.bind (fun _ => Passive .idle) ?_ fun _ => ?_
    · exact Ensures.weaken (undriveBus_leavesAlone .one)
        (fun _ _ before => before.1 aborted) fun _ _ _ after => after
    · refine Ensures.bind (fun _ => Passive .idle)
        (pciNextPosedge_leavesAlone Drive.idle_stays) fun _ => ?_
      exact Ensures.pure fun _ _ passive => passive.resting
  · refine Ensures.bind (fun _ => DataPhase) ?_ fun _ => ?_
    · refine Ensures.weaken (modifyState_dataPhase fun _ => rfl)
        (fun _ _ before => before.2 answered) fun _ _ _ after => after
    refine Ensures.bind _ waitForRead_dataPhase fun outcome => ?_
    cases outcome with
    | error rc =>
        refine Ensures.bind _ releaseBus_ensures fun _ => ?_
        exact Ensures.pure fun _ _ passive => passive.resting
    | ok word =>
        refine Ensures.bind (fun _ => DataPhase) ?_ fun _ => ?_
        · exact Maintains.getState fun pci _ phase =>
            .unlessPcix phase.atEdge.conventional (.pure ())
        · refine Ensures.bind _ releaseBus_ensures fun _ => ?_
          exact Ensures.pure fun _ _ passive => passive.resting

theorem genericPciWrite32_ensures
    (addr : BitVec 64)
    (cmd val ben : BitVec 32) :
    Maintains (Resting .one)
      (genericPciWrite32 callbacks stack addr cmd val ben) := by
  refine Ensures.bind _
    (startTransaction_ensures callbacks stack addr cmd ben false false)
    fun _ => ?_
  refine Ensures.bind (fun _ => DataPhase)
    (setupForWrite_dataPhase _ _ _) fun _ => ?_
  refine Ensures.bind _ waitForDevsel_ensures fun rc => ?_
  refine Ensures.ite (fun aborted => ?_) fun answered => ?_
  · exact Ensures.pure fun _ _ before => (before.1 aborted).resting
  · refine Ensures.bind (fun _ => DataPhase) ?_ fun _ => ?_
    · exact Ensures.weaken pciNextPosedgeUntilTrdy_dataPhase
        (fun _ _ before => before.2 answered) fun _ _ _ after => after
    · refine Ensures.bind _ releaseBus_ensures fun _ => ?_
      exact Ensures.pure fun _ _ passive => passive.resting

/-! ## The operations -/

theorem simbusPciRead32Xz_ensures
    (addr : BitVec 64)
    (ben : BitVec 32) :
    Maintains (Resting .one)
      (simbusPciRead32Xz callbacks stack addr ben) := by
  refine .loop (fun valx => ?_) _
  refine .bind (genericPciRead32_ensures callbacks stack _ _ _ _)
    fun result => ?_
  refine .ite (fun _ => .pure _) fun _ => ?_
  exact .ite (fun _ => .pure _) fun _ => .pure _

theorem simbusPciRead32_ensures
    (addr : BitVec 64)
    (ben : BitVec 32) :
    Maintains (Resting .one) (simbusPciRead32 callbacks stack addr ben) :=
  .bind (simbusPciRead32Xz_ensures callbacks stack addr ben)
    fun _ => .pure _

theorem simbusPciWrite32_ensures
    (addr : BitVec 64)
    (val ben : BitVec 32) :
    Maintains (Resting .one)
      (simbusPciWrite32 callbacks stack addr val ben) :=
  .bind (genericPciWrite32_ensures callbacks stack _ _ _ _)
    fun _ => .pure _

/-- The rest of a burst ends in the data phase or after a disconnect. -/
theorem writeBurstRest_ensures
    (beLn : BitVec 32)
    (words : List (BitVec 32)) :
    Ensures DataPhase (writeBurstRest beLn words : Call User Handle Nat)
      fun _ manners stance =>
        DataPhase manners stance ∨ NextEdge .releasing manners stance := by
  induction words with
  | nil =>
      exact Ensures.pure fun _ _ phase => .inl phase
  | cons val rest inductionHypothesis =>
      refine Ensures.bind (fun _ => DataPhase)
        (modifyState_dataPhase fun _ => rfl) fun _ => ?_
      refine Ensures.bind (fun _ => DataPhase)
        (setupForWrite_dataPhase _ _ _) fun _ => ?_
      refine Ensures.bind (fun _ => DataPhase)
        pciNextPosedgeUntilTrdy_dataPhase fun _ => ?_
      refine Ensures.getState fun pci => Ensures.ite (fun _ => ?_) fun _ => ?_
      · refine Ensures.bind
          (fun _ manners stance =>
            AtEdge manners stance ∧ stance.drive = .releasing ∧
              manners.Next .releasing) ?_ fun _ => ?_
        · apply Ensures.modifyState
          rintro manners pci ⟨phase, _⟩
          refine ⟨⟨phase.atEdge.synced.congr, phase.atEdge.phase⟩, ?_,
            .proceed phase.owned .releasing⟩
          exact congrArg (fun reqN => (⟨reqN, .one, .one⟩ : Drive))
            phase.reqN
        · refine Ensures.bind _ (pciNextPosedge_ensures .releasing)
            fun _ => ?_
          exact Ensures.pure fun _ _ edge => .inr edge
      · exact inductionHypothesis.weaken (fun _ _ before => before.1)
          fun _ _ _ after => after

theorem simbusPciWrite32b_ensures
    (addr : BitVec 64)
    (words : List (BitVec 32))
    (beFn beLn : BitVec 32) :
    Maintains (Resting .one)
      (simbusPciWrite32b callbacks stack addr words beFn beLn) := by
  match words with
  | [] =>
      exact .abort
  | [val] =>
      refine .bind (.assert _) fun _ => ?_
      exact .bind (simbusPciWrite32_ensures callbacks stack _ _ _)
        fun _ => .pure _
  | val :: next :: rest =>
      refine Ensures.bind _
        (startTransaction_ensures callbacks stack addr _ _ false true)
        fun _ => ?_
      refine Ensures.bind (fun _ => DataPhase)
        (setupForWrite_dataPhase _ _ _) fun _ => ?_
      refine Ensures.bind _ waitForDevsel_ensures fun rc => ?_
      refine Ensures.ite (fun aborted => ?_) fun answered => ?_
      · exact Ensures.pure fun _ _ before => (before.1 aborted).resting
      · refine Ensures.bind (fun _ => DataPhase) ?_ fun _ => ?_
        · exact Ensures.weaken pciNextPosedgeUntilTrdy_dataPhase
            (fun _ _ before => before.2 answered) fun _ _ _ after => after
        refine Ensures.bind _ (writeBurstRest_ensures beLn _)
          fun remain => ?_
        refine Ensures.bind _ releaseBus_afterBurst fun _ => ?_
        exact Ensures.pure fun _ _ passive => passive.resting

/-- An attempt of a 64-bit read may leave the release to its caller. -/
theorem read64Attempt_ensures
    (addr : BitVec 64)
    (ben : BitVec 32) :
    Ensures (Resting .one) (read64Attempt callbacks stack addr ben)
      fun outcome manners stance =>
        match outcome with
        | .inl _ => Resting .one manners stance
        | .inr (.error _) => Resting .one manners stance
        | .inr (.ok _) => DataPhase manners stance := by
  refine Ensures.bind _
    (startTransaction_ensures callbacks stack addr _ _ true false)
    fun _ => ?_
  refine Ensures.bind (fun _ => DataPhase) (Maintains.unseen fun _ => rfl)
    fun _ => ?_
  refine Ensures.bind _ waitForDevsel_ensures fun rc => ?_
  refine Ensures.ite (fun aborted => ?_) fun answered => ?_
  · exact Ensures.pure fun _ _ before => (before.1 aborted).resting
  · refine Ensures.bind (fun _ => DataPhase) ?_ fun outcome => ?_
    · exact Ensures.weaken waitForRead_dataPhase
        (fun _ _ before => before.2 answered) fun _ _ _ after => after
    cases outcome with
    | error rc =>
        refine Ensures.bind _ releaseBus_ensures fun _ => ?_
        exact Ensures.pure fun _ _ passive => passive.resting
    | ok word =>
        refine Ensures.getState fun pci => Ensures.ite (fun _ => ?_)
          fun _ => ?_
        · exact Ensures.pure fun _ _ before => before.1
        · refine Ensures.bind (fun _ => DataPhase) ?_ fun _ => ?_
          · refine Ensures.weaken (modifyState_dataPhase fun _ => rfl)
              (fun _ _ before => before.1) fun _ _ _ after => after
          refine Ensures.bind (fun _ => DataPhase)
            pciNextPosedge_dataPhase fun _ => ?_
          refine Ensures.bind _ waitForRead_dataPhase fun high => ?_
          cases high with
          | error rc =>
              exact .abort
          | ok high =>
              exact Ensures.pure fun _ _ phase => phase

/-- What a read leaves behind: an abort, or a word in the data phase. -/
def AfterAttempt
    (outcome : Except (BitVec 64) (BitVec 64))
    (manners : Manners)
    (stance : Stance) : Prop :=
  match outcome with
  | .error _ => Resting .one manners stance
  | .ok _ => DataPhase manners stance

theorem simbusPciRead64_ensures
    (addr : BitVec 64)
    (ben : BitVec 32) :
    Maintains (Resting .one)
      (simbusPciRead64 callbacks stack addr ben) := by
  refine Ensures.bind AfterAttempt ?_ fun outcome => ?_
  · refine Ensures.loop (fun _ => Resting .one) (fun _ => ?_) ()
    apply (read64Attempt_ensures callbacks stack addr ben).weaken
      (fun _ _ before => before)
    intro outcome manners stance after
    rcases outcome with _ | (_ | _) <;> exact after
  · cases outcome with
    | error val =>
        exact Ensures.pure fun _ _ after => after
    | ok val =>
        refine Ensures.bind _ releaseBus_ensures fun _ => ?_
        exact Ensures.pure fun _ _ passive => passive.resting

theorem simbusPciWrite64_ensures
    (addr val : BitVec 64)
    (ben : BitVec 32) :
    Maintains (Resting .one)
      (simbusPciWrite64 callbacks stack addr val ben) := by
  have releases :
      Ensures DataPhase (releaseBus : Call User Handle Unit)
        fun _ => Resting .one :=
    releaseBus_ensures.weaken (fun _ _ before => before)
      fun _ _ _ passive => passive.resting
  refine Ensures.bind _
    (startTransaction_ensures callbacks stack addr _ _ true false)
    fun _ => ?_
  refine Ensures.bind (fun _ => DataPhase)
    (setupForWrite_dataPhase _ _ _) fun _ => ?_
  refine Ensures.bind _ waitForDevsel_ensures fun rc => ?_
  refine Ensures.ite (fun aborted => ?_) fun answered => ?_
  · exact Ensures.pure fun _ _ before => (before.1 aborted).resting
  · refine Ensures.bind (fun _ => DataPhase) ?_ fun _ => ?_
    · exact Ensures.weaken pciNextPosedgeUntilTrdy_dataPhase
        (fun _ _ before => before.2 answered) fun _ _ _ after => after
    refine Ensures.getState fun pci => Ensures.ite (fun _ => ?_) fun _ => ?_
    · exact releases.weaken (fun _ _ before => before.1)
        fun _ _ _ after => after
    · refine Ensures.bind (fun _ => DataPhase) ?_ fun _ => ?_
      · refine Ensures.weaken (modifyState_dataPhase fun _ => rfl)
          (fun _ _ before => before.1) fun _ _ _ after => after
      refine Ensures.bind (fun _ => DataPhase)
        (setupForWrite_dataPhase _ _ _) fun _ => ?_
      exact Ensures.bind (fun _ => DataPhase)
        pciNextPosedgeUntilTrdy_dataPhase fun _ => releases

theorem write64bFrom_ensures
    (beFn beLn : BitVec 32)
    (words : List (BitVec 64))
    (first : Bool)
    (addr : BitVec 64) :
    Maintains (Resting .one)
      (write64bFrom callbacks stack beFn beLn first addr words) := by
  induction words generalizing first addr with
  | nil =>
      exact .pure ()
  | cons val rest inductionHypothesis =>
      exact .bind (simbusPciWrite64_ensures callbacks stack _ _ _)
        fun _ => inductionHypothesis _ _

theorem simbusPciWrite64b_ensures
    (addr : BitVec 64)
    (words : List (BitVec 64))
    (beFn beLn : BitVec 32) :
    Maintains (Resting .one)
      (simbusPciWrite64b callbacks stack addr words beFn beLn) := by
  refine .bind (.assert _) fun _ => .bind (.assert _) fun _ => ?_
  exact .bind (write64bFrom_ensures callbacks stack _ _ _ _ _)
    fun _ => .pure _

theorem simbusPciConfigRead_ensures
    (dfn : BitVec 8)
    (dwAddr : BitVec 16) :
    Maintains (Resting .one)
      (simbusPciConfigRead callbacks stack dfn dwAddr) :=
  .bind (genericPciRead32_ensures callbacks stack _ _ _ _)
    fun _ => .pure _

theorem simbusPciConfigWrite_ensures
    (dfn : BitVec 8)
    (dwAddr : BitVec 16)
    (val ben : BitVec 32) :
    Maintains (Resting .one)
      (simbusPciConfigWrite callbacks stack dfn dwAddr val ben) :=
  .bind (genericPciWrite32_ensures callbacks stack _ _ _ _)
    fun _ => .pure _

theorem simbusPciWait_ensures
    (clks : Nat)
    (irq : Option (BitVec 64)) :
    Maintains (Resting .one) (simbusPciWait callbacks stack clks irq) :=
  simbusPciWaitWith_ensures Drive.idle_stays
    (pciTargetStateMachine_leavesAlone callbacks Drive.idle_stays _)
    clks irq

theorem simbusPciReset_ensures
    (width settle : Nat) :
    Maintains (Resting .one)
      (simbusPciReset callbacks stack width settle) := by
  refine .bind (.assert _) fun _ => .bind (.assert _) fun _ => ?_
  refine .bind (.unseen fun _ => rfl) fun _ => ?_
  refine .bind (simbusPciWait_ensures callbacks stack _ _) fun _ => ?_
  refine .bind (.unseen fun _ => rfl) fun _ => ?_
  exact .bind (simbusPciWait_ensures callbacks stack _ _) fun _ => .pure _

end

end Simbus.Pci
