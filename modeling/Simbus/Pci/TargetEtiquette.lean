import Simbus.Pci.ClientEdge

/-!
# The etiquette of a target

On a conventional bus the target machine leaves REQ#, FRAME# and IRDY# as they
are, whether its client is idle or requests the bus.
-/

namespace Simbus.Pci

open FourValued Clocked PciProtocol

/-- Outputs that a client may go on showing at every edge. -/
def Drive.Stays (drive : Drive) : Prop :=
  ∀ manners : Manners, manners.shown = drive → manners.Next drive

namespace Drive

theorem Stays.ne_releasing
    {drive : Drive}
    (stays : drive.Stays) :
    drive ≠ .releasing := by
  rintro rfl
  let manners : Manners := ⟨0, releasing, .x, .x, .x⟩
  have next : manners.Next releasing := stays manners rfl
  generalize shape : releasing = drive at next
  cases next with
  | rest _ =>
      cases shape
  | request _ =>
      cases shape
  | wait _ =>
      cases shape
  | start quiet _ =>
      rcases quiet with isIdle | isRequesting
      · cases isIdle
      · cases isRequesting
  | proceed owns _ =>
      rcases owns.holds with frames | readies
      · cases frames
      · cases readies
  | settle _ =>
      cases shape

theorem idle_stays : idle.Stays :=
  fun _ => .rest

theorem requesting_stays : requesting.Stays :=
  fun _ => .wait

theorem Owns.stays
    {drive : Drive}
    (owns : drive.Owns) :
    drive.Stays := by
  rintro manners rfl
  exact .proceed owns (.owns owns)

end Drive

/-- A client at an edge that may go on showing its outputs. -/
structure Passive
    (drive : Drive)
    (manners : Manners)
    (stance : Stance) : Prop where
  atEdge : AtEdge manners stance
  shows : stance.drive = drive
  next : manners.Next drive
  released : manners.shown ≠ .releasing

/-- After a whole clock the outputs may stay as they are. -/
theorem NextEdge.passive
    {drive : Drive}
    {manners : Manners}
    {stance : Stance}
    (nextEdge : NextEdge drive manners stance)
    (stays : drive.Stays) :
    Passive drive manners stance where
  atEdge := nextEdge.atEdge
  shows := nextEdge.shows
  next := stays manners nextEdge.shown
  released := nextEdge.shown ▸ stays.ne_releasing

section

variable {User Handle Value Result : Type}
variable {drive : Drive}

/-- The call may be used at any edge and does not change these outputs. -/
abbrev LeavesAlone
    (drive : Drive)
    (call : Call User Handle Value) : Prop :=
  Maintains (Passive drive) call

/-! ## Edges -/

theorem pciNextPosedge_leavesAlone
    (stays : drive.Stays) :
    LeavesAlone drive (pciNextPosedge : Call User Handle Unit) :=
  (pciNextPosedge_ensures drive).weaken
    (fun _ _ passive => ⟨passive.atEdge, passive.shows, passive.next⟩)
    fun _ _ _ nextEdge => nextEdge.passive stays

theorem pciNextPosedgeUntilIrdy_leavesAlone
    (stays : drive.Stays) :
    LeavesAlone drive (pciNextPosedgeUntilIrdy : Call User Handle Unit) :=
  .bind (pciNextPosedge_leavesAlone stays) fun _ =>
    .whileDo (pciNextPosedge_leavesAlone stays)

/-- PCI-X inserts clocks where a conventional bus has none. -/
theorem pcixNextPosedge_leavesAlone :
    LeavesAlone drive (pcixNextPosedge : Call User Handle Unit) :=
  .getState fun _ _ passive =>
    .unlessPcix passive.atEdge.conventional (.pure ())

/-! ## Callbacks -/

theorem callNeed32_leavesAlone
    (callbacks : Callbacks User Handle)
    (handle : Handle)
    (addr : BitVec 64)
    (ben : BitVec 32) :
    LeavesAlone drive (callNeed32 callbacks handle addr ben) :=
  .getState fun _ _ _ => .bind (.unseen fun _ => rfl) fun _ => .pure _

theorem callNeed32OrElse_leavesAlone
    (callbacks : Callbacks User Handle)
    (need32 : Option Handle)
    (addr : BitVec 64)
    (ben otherwise : BitVec 32) :
    LeavesAlone drive
      (callNeed32OrElse callbacks need32 addr ben otherwise) := by
  cases need32 with
  | none =>
      exact .pure _
  | some handle =>
      exact callNeed32_leavesAlone callbacks handle addr ben

theorem callNeed32OrFail_leavesAlone
    (callbacks : Callbacks User Handle)
    (need32 : Option Handle)
    (addr : BitVec 64)
    (ben : BitVec 32) :
    LeavesAlone drive (callNeed32OrFail callbacks need32 addr ben) := by
  cases need32 with
  | none =>
      exact .abort
  | some handle =>
      exact callNeed32_leavesAlone callbacks handle addr ben

theorem callRecv32_leavesAlone
    (callbacks : Callbacks User Handle)
    (handle : Handle)
    (addr : BitVec 64)
    (val ben : BitVec 32) :
    LeavesAlone drive (callRecv32 callbacks handle addr val ben) :=
  .unseen fun _ => rfl

theorem callRecv32IfAny_leavesAlone
    (callbacks : Callbacks User Handle)
    (recv32 : Option Handle)
    (addr : BitVec 64)
    (val ben : BitVec 32) :
    LeavesAlone drive (callRecv32IfAny callbacks recv32 addr val ben) := by
  cases recv32 with
  | none =>
      exact .pure _
  | some handle =>
      exact callRecv32_leavesAlone callbacks handle addr val ben

theorem genrand_leavesAlone :
    LeavesAlone drive (genrand : Call User Handle Int) :=
  .getState fun _ _ _ => .bind (.unseen fun _ => rfl) fun _ => .pure _

theorem chooseToRetry_leavesAlone
    (flag : BitVec 32)
    (bar : Fin 8) :
    LeavesAlone drive
      (chooseToRetry flag bar : Call User Handle Bool) := by
  refine .getState fun pci _ _ => .ite (fun _ => .pure _) fun _ => ?_
  refine .ite (fun _ => .pure _) fun _ => ?_
  exact .bind genrand_leavesAlone fun _ => .pure _

/-! ## Releasing the bus -/

/-- A client that drives nothing releases nothing. -/
theorem undriveBus_leavesAlone
    (reqN : Logic4) :
    LeavesAlone (.quiet reqN) (undriveBus : Call User Handle Unit) := by
  apply Maintains.modifyState
  intro manners pci passive
  have same : (driveOf pci.ready) = .quiet reqN := passive.shows
  have request : pci.outReqN = reqN := congrArg Drive.reqN same
  exact
    { atEdge := ⟨passive.atEdge.synced.congr, passive.atEdge.phase⟩
      shows := congrArg Drive.quiet request
      next := passive.next
      released := passive.released }

theorem setTargetState_leavesAlone
    (state : TargetState) :
    LeavesAlone drive (setTargetState state : Call User Handle Unit) :=
  .unseen fun _ => rfl

/-! ## Configuration cycles -/

variable {reqN : Logic4}
variable (callbacks : Callbacks User Handle)

theorem doTargetConfigRead_leavesAlone
    (stays : (Drive.quiet reqN).Stays) :
    LeavesAlone (.quiet reqN) (doTargetConfigRead callbacks) := by
  refine .getState fun pci _ _ => ?_
  refine .bind (callNeed32OrElse_leavesAlone _ _ _ _ _) fun val => ?_
  refine .bind (.unseen fun _ => rfl) fun _ => ?_
  refine .bind (pciNextPosedge_leavesAlone stays) fun _ => ?_
  refine .bind (.unseen fun _ => rfl) fun _ => ?_
  refine .bind (pciNextPosedgeUntilIrdy_leavesAlone stays) fun _ => ?_
  refine .bind (.unseen fun _ => rfl) fun _ => ?_
  refine .bind (pciNextPosedge_leavesAlone stays) fun _ => ?_
  exact .bind (undriveBus_leavesAlone reqN) fun _ =>
    setTargetState_leavesAlone .idle

theorem doTargetConfigWrite_leavesAlone
    (stays : (Drive.quiet reqN).Stays) :
    LeavesAlone (.quiet reqN) (doTargetConfigWrite callbacks) := by
  refine .bind (.assert _) fun _ => .getState fun pci _ _ => ?_
  refine .bind (.unseen fun _ => rfl) fun _ => ?_
  refine .bind (pciNextPosedgeUntilIrdy_leavesAlone stays) fun _ => ?_
  refine .getState fun sampled _ _ => ?_
  refine .bind (callRecv32IfAny_leavesAlone _ _ _ _ _) fun _ => ?_
  refine .bind (.unseen fun _ => rfl) fun _ => ?_
  refine .bind (pciNextPosedge_leavesAlone stays) fun _ => ?_
  exact .bind (.unseen fun _ => rfl) fun _ =>
    setTargetState_leavesAlone .idle

/-! ## Memory cycles -/

theorem doTargetMemoryRwRetry_leavesAlone
    (stays : drive.Stays) :
    LeavesAlone drive
      (doTargetMemoryRwRetry : Call User Handle Unit) := by
  refine .bind pcixNextPosedge_leavesAlone fun _ => ?_
  refine .bind (.unseen fun _ => rfl) fun _ => ?_
  refine .bind pcixNextPosedge_leavesAlone fun _ => ?_
  refine .bind (.unseen fun _ => rfl) fun _ => ?_
  refine .bind (pciNextPosedge_leavesAlone stays) fun _ => ?_
  refine .bind (.unseen fun _ => rfl) fun _ => ?_
  refine .bind (pciNextPosedge_leavesAlone stays) fun _ => ?_
  refine .bind (.unseen fun _ => rfl) fun _ => ?_
  exact .bind (pciNextPosedge_leavesAlone stays) fun _ =>
    setTargetState_leavesAlone .idle

theorem needBurstWords_leavesAlone
    (bar : Fin 8)
    (wordSize : Nat)
    (burst : ReadBurst) :
    LeavesAlone drive (needBurstWords callbacks bar wordSize burst) := by
  refine .getState fun pci _ _ => ?_
  refine .bind (callNeed32OrElse_leavesAlone _ _ _ _ _) fun valL => ?_
  refine .ite (fun _ => .getState fun next _ _ => ?_) fun _ => .pure _
  exact .bind (callNeed32OrFail_leavesAlone _ _ _ _) fun valH => .pure _

theorem readBurstWord_leavesAlone
    (stays : drive.Stays)
    (bar : Fin 8)
    (wordSize wordCount : Nat)
    (burst : ReadBurst) :
    LeavesAlone drive
      (readBurstWord callbacks bar wordSize wordCount burst) := by
  refine .bind (needBurstWords_leavesAlone _ _ _ _) fun words => ?_
  refine .bind (.unseen fun _ => rfl) fun _ => ?_
  refine .bind (.unseen fun _ => ?_) fun _ => ?_
  · split <;> rfl
  refine .bind (pciNextPosedgeUntilIrdy_leavesAlone stays) fun _ => ?_
  refine .getState fun pci _ _ => .ite (fun _ => .pure _) fun _ => ?_
  exact .ite (fun _ => .pure _) fun _ => .pure _

theorem readData_leavesAlone
    (stays : (Drive.quiet reqN).Stays)
    (bar : Fin 8)
    (addr : BitVec 64)
    (wordSize wordCount : Nat) :
    LeavesAlone (.quiet reqN)
      (readData callbacks bar addr wordSize wordCount) := by
  refine .bind (.unseen fun _ => rfl) fun _ => ?_
  refine .bind pcixNextPosedge_leavesAlone fun _ => ?_
  refine .bind (.unseen fun _ => rfl) fun _ => ?_
  refine .bind (pciNextPosedge_leavesAlone stays) fun _ => ?_
  refine .bind (.loop (readBurstWord_leavesAlone _ stays _ _ _) _)
    fun _ => ?_
  refine .bind (.unseen fun _ => rfl) fun _ => ?_
  refine .bind (pciNextPosedge_leavesAlone stays) fun _ => ?_
  exact .bind (undriveBus_leavesAlone reqN) fun _ =>
    setTargetState_leavesAlone .idle

theorem doTargetMemoryRead_leavesAlone
    (stays : (Drive.quiet reqN).Stays)
    (requestBus : Call User Handle Unit)
    (bar : Fin 8) :
    LeavesAlone (.quiet reqN)
      (doTargetMemoryRead callbacks requestBus bar) := by
  refine .getState fun pci _ _ => ?_
  refine .bind (chooseToRetry_leavesAlone _ _) fun retry => ?_
  refine .ite (fun _ => doTargetMemoryRwRetry_leavesAlone stays)
    fun _ => ?_
  refine .getState fun pci _ passive =>
    .unlessPcix passive.atEdge.conventional ?_
  exact readData_leavesAlone callbacks stays bar _ 4 0

theorem writeBurstReceive_leavesAlone
    (bar : Fin 8)
    (burst : WriteBurst)
    (addr : BitVec 64)
    (burstLen : Nat) :
    LeavesAlone drive
      (writeBurstReceive callbacks bar burst addr burstLen) := by
  refine .getState fun pci _ _ => ?_
  split
  · exact .pure _
  · refine .ite (fun _ => callRecv32_leavesAlone _ _ _ _ _) fun _ => ?_
    refine .bind (callRecv32_leavesAlone _ _ _ _ _) fun _ => ?_
    refine .getState fun next _ _ => ?_
    split
    · exact .abort
    · exact callRecv32_leavesAlone _ _ _ _ _

theorem writeBurstWord_leavesAlone
    (stays : drive.Stays)
    (bar : Fin 8)
    (burst : WriteBurst)
    (current : BitVec 64 × Nat) :
    LeavesAlone drive (writeBurstWord callbacks bar burst current) := by
  refine .bind (pciNextPosedgeUntilIrdy_leavesAlone stays) fun _ => ?_
  refine .bind (writeBurstReceive_leavesAlone _ _ _ _ _) fun _ => ?_
  refine .getState fun pci _ _ => .ite (fun _ => .pure _) fun _ => ?_
  exact .ite (fun _ => .pure _) fun _ => .pure _

theorem writeData_leavesAlone
    (stays : drive.Stays)
    (bar : Fin 8)
    (addr : BitVec 64)
    (burst : WriteBurst) :
    LeavesAlone drive (writeData callbacks bar addr burst) := by
  refine .bind (.unseen fun _ => rfl) fun _ => ?_
  refine .bind pcixNextPosedge_leavesAlone fun _ => ?_
  refine .bind (.unseen fun _ => rfl) fun _ => ?_
  refine .bind (.loop (writeBurstWord_leavesAlone _ stays _ _) _)
    fun _ => ?_
  refine .bind (.unseen fun _ => rfl) fun _ => ?_
  exact .bind (pciNextPosedge_leavesAlone stays) fun _ =>
    setTargetState_leavesAlone .idle

theorem doTargetMemoryWrite_leavesAlone
    (stays : drive.Stays)
    (bar : Fin 8) :
    LeavesAlone drive (doTargetMemoryWrite callbacks bar) := by
  refine .getState fun pci _ _ => ?_
  refine .bind (chooseToRetry_leavesAlone _ _) fun retry => ?_
  refine .ite (fun _ => doTargetMemoryRwRetry_leavesAlone stays)
    fun _ => ?_
  refine .getState fun pci _ passive =>
    .unlessPcix passive.atEdge.conventional ?_
  exact writeData_leavesAlone callbacks stays bar _ _

/-! ## The machine -/

/-- The target machine changes neither REQ# nor FRAME# nor IRDY#. -/
theorem pciTargetStateMachine_leavesAlone
    (stays : (Drive.quiet reqN).Stays)
    (requestBus : Call User Handle Unit) :
    LeavesAlone (.quiet reqN)
      (pciTargetStateMachine callbacks requestBus) := by
  refine .bind (.assert _) fun _ => .getState fun pci _ _ => ?_
  cases targetAction pci with
  | stay =>
      exact .pure _
  | memoryRead bar =>
      exact doTargetMemoryRead_leavesAlone callbacks stays requestBus bar
  | memoryWrite bar =>
      exact doTargetMemoryWrite_leavesAlone callbacks stays bar
  | configRead =>
      exact doTargetConfigRead_leavesAlone callbacks stays
  | configWrite =>
      exact doTargetConfigWrite_leavesAlone callbacks stays
  | dualAddress =>
      exact .unseen fun _ => rfl
  | skip =>
      exact setTargetState_leavesAlone .busBusy
  | release =>
      exact setTargetState_leavesAlone .idle

end

end Simbus.Pci
