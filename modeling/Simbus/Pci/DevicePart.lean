import Simbus.Clocked.Safety
import Simbus.Pci.Master

/-!
# What the target machine does to the device

Exchanges, clock edges and outputs do not touch the part of a client that the
callbacks may change, nor the state of the target machine.  So what the
callbacks keep of the device holds after every action of the machine, which is
idle then.
-/

namespace Simbus.Pci

open FourValued Clocked

section

variable {User Handle Value Result : Type}

/-- Safety on any replies, without any demand on a client that waits. -/
abbrev anyReply : Logic (SimbusPci User Handle) Reply :=
  safety (fun _ => True) fun _ => True

/-- An assertion about the device, and about the state of the machine. -/
abbrev Part (User Handle : Type) : Type :=
  TargetState → Device User Handle → Prop

/-- The part of a client that an assertion is about. -/
abbrev Part.of
    (part : Part User Handle)
    (pci : SimbusPci User Handle) : Prop :=
  part pci.targetState pci.device

/-- The assertion about the device alone. -/
abbrev onDevice (holds : Device User Handle → Prop) : Part User Handle :=
  fun _ => holds

/-- The device is as asserted, and the machine is idle. -/
abbrev idleWith (holds : Device User Handle → Prop) : Part User Handle :=
  fun state device => state = .idle ∧ holds device

/-- A call establishes an assertion, given another one. -/
abbrev Leads
    (before : Part User Handle)
    (call : Call User Handle Value)
    (after : Part User Handle) : Prop :=
  anyReply.Triple (fun _ => before.of) call fun _ _ => after.of

/-- A call keeps an assertion. -/
abbrev KeepsPart
    (part : Part User Handle)
    (call : Call User Handle Value) : Prop :=
  Leads part call part

variable {part before middle after : Part User Handle}
variable {holds : Device User Handle → Prop}

/-! ## Rules -/

theorem Leads.bind
    {call : Call User Handle Value}
    {next : Value → Call User Handle Result}
    (first : Leads before call middle)
    (later : ∀ value, Leads middle (next value) after) :
    Leads before (call >>= next) after :=
  Logic.Triple.bind first later

theorem Leads.getState
    {next : SimbusPci User Handle → Call User Handle Value}
    (reads : ∀ pci, Leads before (next pci) after) :
    Leads before (Program.getState >>= next) after :=
  Logic.Triple.getState fun step pci holds => reads pci step pci holds

theorem Leads.ite
    {condition : Prop}
    [Decidable condition]
    {yes no : Call User Handle Value}
    (first : Leads before yes after)
    (second : Leads before no after) :
    Leads before (if condition then yes else no) after :=
  Logic.Triple.ite (fun _ => first) fun _ => second

theorem Leads.abort :
    Leads before (Program.abort : Call User Handle Value) after :=
  fun _ _ _ => safe_fail.mpr trivial

theorem Leads.weaken
    {call : Call User Handle Value}
    {weaker : Part User Handle}
    (leads : Leads before call after)
    (implies : ∀ state device, after state device → weaker state device) :
    Leads before call weaker :=
  Logic.Triple.weaken leads (fun _ _ holds => holds) fun _ _ _ => implies _ _

theorem Leads.weakenBefore
    {call : Call User Handle Value}
    {stronger : Part User Handle}
    (leads : Leads before call after)
    (implies : ∀ state device, stronger state device → before state device) :
    Leads stronger call after :=
  Logic.Triple.weaken leads (fun _ _ => implies _ _) fun _ _ _ holds => holds

theorem Leads.pure (value : Value) :
    KeepsPart part (Pure.pure value : Call User Handle Value) :=
  Logic.Triple.pure fun _ _ holds => holds

/-- A change of the client that the assertion does not see. -/
theorem Leads.unseen
    {change : SimbusPci User Handle → SimbusPci User Handle}
    (sameState : ∀ pci, (change pci).targetState = pci.targetState)
    (sameDevice : ∀ pci, (change pci).device = pci.device) :
    KeepsPart part (Program.modifyState change) := by
  refine Logic.Triple.modifyState fun step pci holds => ?_
  rw [Part.of, sameState, sameDevice]
  exact holds

theorem Leads.assert (condition : SimbusPci User Handle → Bool) :
    KeepsPart part (Program.assert condition) := by
  intro step pci holds
  rw [Program.start_assert]
  split
  · exact anyReply.finish holds
  · exact safe_fail.mpr trivial

theorem Leads.whileDo
    {condition : SimbusPci User Handle → Bool}
    {body : Call User Handle Unit}
    (keeps : KeepsPart part body) :
    KeepsPart part (Program.whileDo condition body) := by
  have turn : anyReply.Triple
      (fun _ pci => part.of pci ∧ condition pci = true) body
      fun _ _ => part.of :=
    Logic.Triple.weaken keeps (fun _ _ holds => holds.1)
      fun _ _ _ holds => holds
  have loops := safety_whileDo (fun _ => part.of) (fun _ _ _ => trivial) turn
  exact Logic.Triple.weaken loops (fun _ _ holds => holds)
    fun _ _ _ holds => holds.1

theorem Leads.loop
    {Local : Type}
    {body : Local → Call User Handle (Local ⊕ Result)}
    (keeps : ∀ current, KeepsPart part (body current))
    (current : Local) :
    KeepsPart part (Program.loop body current) := by
  refine safety_loop (fun _ _ => part.of) (fun _ _ _ _ => trivial)
    (fun current => ?_) current
  refine Logic.Triple.weaken (keeps current) (fun _ _ holds => holds) ?_
  rintro (next | result) step pci holds
  · exact holds
  · exact holds

/-! ## Edges -/

theorem sendReadyCommand_keeps :
    KeepsPart part (sendReadyCommand : Call User Handle Int) := by
  intro step pci holds
  refine safe_await.mpr ⟨trivial, fun reply _ => ?_⟩
  cases reply with
  | finish =>
      exact safe_finish.mpr ⟨step, holds⟩
  | «until» signals =>
      exact safe_finish.mpr ⟨step, holds⟩

theorem pciNextPosedge_keeps :
    KeepsPart part (pciNextPosedge : Call User Handle Unit) := by
  refine .bind (.whileDo ?_) fun _ => ?_
  · exact .bind sendReadyCommand_keeps fun _ => .pure _
  refine .bind (.whileDo ?_) fun _ => ?_
  · exact .bind sendReadyCommand_keeps fun _ => .pure _
  exact .unseen (fun _ => rfl) fun _ => rfl

theorem pciNextPosedgeUntilIrdy_keeps :
    KeepsPart part (pciNextPosedgeUntilIrdy : Call User Handle Unit) :=
  .bind pciNextPosedge_keeps fun _ => .whileDo pciNextPosedge_keeps

theorem pcixNextPosedge_keeps :
    KeepsPart part (pcixNextPosedge : Call User Handle Unit) := by
  refine .getState fun pci => ?_
  split
  · exact pciNextPosedge_keeps
  · exact .pure _

theorem pciNextPosedges_keeps (count : Nat) :
    KeepsPart part (pciNextPosedges count : Call User Handle Unit) := by
  induction count with
  | zero =>
      exact .pure _
  | succ count inductionHypothesis =>
      exact .bind pciNextPosedge_keeps fun _ => inductionHypothesis

theorem drive_keeps (change : BiSignals → BiSignals) :
    KeepsPart part (drive change : Call User Handle Unit) :=
  .unseen (fun _ => rfl) fun _ => rfl

theorem genrand_keeps : KeepsPart part (genrand : Call User Handle Int) :=
  .getState fun _ =>
    .bind (.unseen (fun _ => rfl) fun _ => rfl) fun _ => .pure _

theorem chooseToRetry_keeps (flag : BitVec 32) (bar : Fin 8) :
    KeepsPart part (chooseToRetry flag bar : Call User Handle Bool) := by
  refine .getState fun pci => ?_
  split
  · exact .pure _
  · split
    · exact .pure _
    · exact .bind genrand_keeps fun _ => .pure _

theorem setTargetState_leads (state : TargetState) :
    Leads (onDevice holds) (setTargetState state)
      (fun next device => next = state ∧ holds device) :=
  Logic.Triple.modifyState fun _ _ holds => ⟨rfl, holds⟩

theorem exchangeWhileClk_keeps
    (condition : Logic4 → Bool)
    (rc : Int) :
    KeepsPart part
      (exchangeWhileClk condition rc : Call User Handle Int) := by
  refine .loop (fun rc => .getState fun pci => ?_) rc
  split
  · exact .bind sendReadyCommand_keeps fun _ => .pure _
  · exact .pure _

/-! ## Callbacks -/

/-- What the callbacks keep of the device. -/
structure CallbacksKeep
    (holds : Device User Handle → Prop)
    (callbacks : Callbacks User Handle) : Prop where
  need32 : ∀ handle addr ben device, holds device →
    holds (callbacks.need32 handle addr ben device).2
  recv32 : ∀ handle addr val ben device, holds device →
    holds (callbacks.recv32 handle addr val ben device)

variable {callbacks : Callbacks User Handle}
variable (keep : CallbacksKeep holds callbacks)

include keep

theorem callNeed32_keeps
    (handle : Handle)
    (addr : BitVec 64)
    (ben : BitVec 32) :
    KeepsPart (onDevice holds) (callNeed32 callbacks handle addr ben) :=
  fun _ pci holds => safe_finish.mpr
    ⟨0, keep.need32 handle addr ben pci.device holds⟩

theorem callNeed32OrElse_keeps
    (need32 : Option Handle)
    (addr : BitVec 64)
    (ben otherwise : BitVec 32) :
    KeepsPart (onDevice holds)
      (callNeed32OrElse callbacks need32 addr ben otherwise) := by
  cases need32 with
  | none =>
      exact .pure _
  | some handle =>
      exact callNeed32_keeps keep handle addr ben

theorem callNeed32OrFail_keeps
    (need32 : Option Handle)
    (addr : BitVec 64)
    (ben : BitVec 32) :
    KeepsPart (onDevice holds)
      (callNeed32OrFail callbacks need32 addr ben) := by
  cases need32 with
  | none =>
      exact .abort
  | some handle =>
      exact callNeed32_keeps keep handle addr ben

theorem callRecv32_keeps
    (handle : Handle)
    (addr : BitVec 64)
    (val ben : BitVec 32) :
    KeepsPart (onDevice holds) (callRecv32 callbacks handle addr val ben) :=
  Logic.Triple.modifyState fun _ pci =>
    keep.recv32 handle addr val ben pci.device

theorem callRecv32IfAny_keeps
    (recv32 : Option Handle)
    (addr : BitVec 64)
    (val ben : BitVec 32) :
    KeepsPart (onDevice holds)
      (callRecv32IfAny callbacks recv32 addr val ben) := by
  cases recv32 with
  | none =>
      exact .pure _
  | some handle =>
      exact callRecv32_keeps keep handle addr val ben

/-! ## Actions -/

theorem doTargetConfigRead_leads :
    Leads (onDevice holds) (doTargetConfigRead callbacks)
      (idleWith holds) := by
  refine .getState fun pci => ?_
  refine .bind (callNeed32OrElse_keeps keep _ _ _ _) fun val => ?_
  refine .bind (drive_keeps _) fun _ => ?_
  refine .bind pciNextPosedge_keeps fun _ => ?_
  refine .bind (drive_keeps _) fun _ => ?_
  refine .bind pciNextPosedgeUntilIrdy_keeps fun _ => ?_
  refine .bind (drive_keeps _) fun _ => ?_
  refine .bind pciNextPosedge_keeps fun _ => ?_
  exact .bind (drive_keeps _) fun _ => setTargetState_leads .idle

theorem doTargetConfigWrite_leads :
    Leads (onDevice holds) (doTargetConfigWrite callbacks)
      (idleWith holds) := by
  refine .bind (.assert _) fun _ => .getState fun pci => ?_
  refine .bind (drive_keeps _) fun _ => ?_
  refine .bind pciNextPosedgeUntilIrdy_keeps fun _ => ?_
  refine .getState fun sampled => ?_
  refine .bind (callRecv32IfAny_keeps keep _ _ _ _) fun _ => ?_
  refine .bind (drive_keeps _) fun _ => ?_
  refine .bind pciNextPosedge_keeps fun _ => ?_
  exact .bind (drive_keeps _) fun _ => setTargetState_leads .idle

omit keep in
theorem doTargetMemoryRwRetry_leads :
    Leads (onDevice holds) (doTargetMemoryRwRetry : Call User Handle Unit)
      (idleWith holds) := by
  refine .bind pcixNextPosedge_keeps fun _ => ?_
  refine .bind (drive_keeps _) fun _ => ?_
  refine .bind pcixNextPosedge_keeps fun _ => ?_
  refine .bind (drive_keeps _) fun _ => ?_
  refine .bind pciNextPosedge_keeps fun _ => ?_
  refine .bind (drive_keeps _) fun _ => ?_
  refine .bind pciNextPosedge_keeps fun _ => ?_
  refine .bind (drive_keeps _) fun _ => ?_
  exact .bind pciNextPosedge_keeps fun _ => setTargetState_leads .idle

theorem splitCompletionWords_keeps
    (bar : Fin 8)
    (wordCount : Nat)
    (useAddr : BitVec 64) :
    KeepsPart (onDevice holds)
      (splitCompletionWords callbacks bar wordCount useAddr) := by
  induction wordCount generalizing useAddr with
  | zero =>
      exact .pure _
  | succ wordCount inductionHypothesis =>
      refine .bind (drive_keeps _) fun _ => .getState fun pci => ?_
      refine .bind (callNeed32OrFail_keeps keep _ _ _) fun val => ?_
      refine .bind (drive_keeps _) fun _ => ?_
      exact .bind pciNextPosedge_keeps fun _ =>
        inductionHypothesis (useAddr + 4)

/-- The request comes before the first callback. -/
theorem doTargetMemoryReadSplit_leads
    {holdsBefore : Device User Handle → Prop}
    {requestBus : Call User Handle Unit}
    (requests : Leads (onDevice holdsBefore) requestBus (onDevice holds))
    (bar : Fin 8)
    (addr : BitVec 64)
    (attr : BitVec 32)
    (byteCount : Nat) :
    Leads (onDevice holdsBefore)
      (doTargetMemoryReadSplit callbacks requestBus bar addr attr byteCount)
      (idleWith holds) := by
  refine .bind (drive_keeps _) fun _ => ?_
  refine .bind pciNextPosedge_keeps fun _ => ?_
  refine .bind (drive_keeps _) fun _ => ?_
  refine .bind pciNextPosedge_keeps fun _ => ?_
  refine .bind (drive_keeps _) fun _ => ?_
  refine .bind pciNextPosedge_keeps fun _ => ?_
  refine .bind (drive_keeps _) fun _ => ?_
  refine .bind (setTargetState_leads .idle) fun _ => ?_
  refine .bind (pciNextPosedges_keeps 10) fun _ => ?_
  refine .bind (Leads.weakenBefore requests fun _ _ idle => idle.2)
    fun _ => ?_
  refine .bind (drive_keeps _) fun _ => ?_
  refine .bind (drive_keeps _) fun _ => ?_
  refine .bind (drive_keeps _) fun _ => ?_
  refine .bind pciNextPosedge_keeps fun _ => .getState fun pci => ?_
  refine .bind (drive_keeps _) fun _ => ?_
  refine .bind (drive_keeps _) fun _ => ?_
  refine .bind pciNextPosedge_keeps fun _ => ?_
  refine .bind (drive_keeps _) fun _ => ?_
  refine .bind (.whileDo pciNextPosedge_keeps) fun _ => ?_
  refine .bind (splitCompletionWords_keeps keep _ _ _) fun _ => ?_
  refine .bind (pciNextPosedges_keeps _) fun _ => ?_
  refine .bind (drive_keeps _) fun _ => ?_
  refine .bind pciNextPosedge_keeps fun _ => ?_
  refine .bind (drive_keeps _) fun _ => ?_
  exact .bind (setTargetState_leads .idle) fun _ => pciNextPosedge_keeps

theorem needBurstWords_keeps
    (bar : Fin 8)
    (wordSize : Nat)
    (burst : ReadBurst) :
    KeepsPart (onDevice holds)
      (needBurstWords callbacks bar wordSize burst) := by
  refine .getState fun pci => ?_
  refine .bind (callNeed32OrElse_keeps keep _ _ _ _) fun valL => ?_
  split
  · refine .getState fun next => ?_
    exact .bind (callNeed32OrFail_keeps keep _ _ _) fun valH => .pure _
  · exact .pure _

theorem readBurstWord_keeps
    (bar : Fin 8)
    (wordSize wordCount : Nat)
    (burst : ReadBurst) :
    KeepsPart (onDevice holds)
      (readBurstWord callbacks bar wordSize wordCount burst) := by
  refine .bind (needBurstWords_keeps keep _ _ _) fun words => ?_
  refine .bind (drive_keeps _) fun _ => ?_
  refine .bind (drive_keeps _) fun _ => ?_
  refine .bind pciNextPosedgeUntilIrdy_keeps fun _ => ?_
  refine .getState fun pci => .ite (.pure _) ?_
  exact .ite (.pure _) (.pure _)

theorem readData_leads
    (bar : Fin 8)
    (addr : BitVec 64)
    (wordSize wordCount : Nat) :
    Leads (onDevice holds) (readData callbacks bar addr wordSize wordCount)
      (idleWith holds) := by
  refine .bind (drive_keeps _) fun _ => ?_
  refine .bind pcixNextPosedge_keeps fun _ => ?_
  refine .bind (drive_keeps _) fun _ => ?_
  refine .bind pciNextPosedge_keeps fun _ => ?_
  refine .bind (.loop (readBurstWord_keeps keep _ _ _) _) fun _ => ?_
  refine .bind (drive_keeps _) fun _ => ?_
  refine .bind pciNextPosedge_keeps fun _ => ?_
  exact .bind (drive_keeps _) fun _ => setTargetState_leads .idle

theorem writeBurstReceive_keeps
    (bar : Fin 8)
    (burst : WriteBurst)
    (addr : BitVec 64)
    (burstLen : Nat) :
    KeepsPart (onDevice holds)
      (writeBurstReceive callbacks bar burst addr burstLen) := by
  refine .getState fun pci => ?_
  split
  · exact .pure _
  · refine .ite (callRecv32_keeps keep _ _ _ _) ?_
    refine .bind (callRecv32_keeps keep _ _ _ _) fun _ => ?_
    refine .getState fun next => ?_
    split
    · exact .abort
    · exact callRecv32_keeps keep _ _ _ _

theorem writeBurstWord_keeps
    (bar : Fin 8)
    (burst : WriteBurst)
    (current : BitVec 64 × Nat) :
    KeepsPart (onDevice holds)
      (writeBurstWord callbacks bar burst current) := by
  refine .bind pciNextPosedgeUntilIrdy_keeps fun _ => ?_
  refine .bind (writeBurstReceive_keeps keep _ _ _ _) fun _ => ?_
  refine .getState fun pci => .ite (.pure _) ?_
  exact .ite (.pure _) (.pure _)

theorem writeData_leads
    (bar : Fin 8)
    (addr : BitVec 64)
    (burst : WriteBurst) :
    Leads (onDevice holds) (writeData callbacks bar addr burst)
      (idleWith holds) := by
  refine .bind (drive_keeps _) fun _ => ?_
  refine .bind pcixNextPosedge_keeps fun _ => ?_
  refine .bind (drive_keeps _) fun _ => ?_
  refine .bind (.loop (writeBurstWord_keeps keep _ _) _) fun _ => ?_
  refine .bind (drive_keeps _) fun _ => ?_
  exact .bind pciNextPosedge_keeps fun _ => setTargetState_leads .idle

theorem doTargetMemoryWrite_leads (bar : Fin 8) :
    Leads (onDevice holds) (doTargetMemoryWrite callbacks bar)
      (idleWith holds) := by
  refine .getState fun pci => ?_
  refine .bind (chooseToRetry_keeps _ _) fun retry => ?_
  split
  · exact doTargetMemoryRwRetry_leads
  · refine .getState fun pci => ?_
    split
    · refine .bind pciNextPosedge_keeps fun _ => .getState fun sampled => ?_
      refine .bind genrand_keeps fun _ => ?_
      refine .bind (pciNextPosedges_keeps _) fun _ => ?_
      exact writeData_leads keep bar _ _
    · exact writeData_leads keep bar _ _

section Requests

variable {holdsBefore : Device User Handle → Prop}
variable {requestBus : Call User Handle Unit}
variable (implies : ∀ device, holdsBefore device → holds device)
variable (requests : Leads (onDevice holdsBefore) requestBus (onDevice holds))

include implies requests

theorem doTargetMemoryRead_leads (bar : Fin 8) :
    Leads (onDevice holdsBefore)
      (doTargetMemoryRead callbacks requestBus bar) (idleWith holds) := by
  refine .getState fun pci => ?_
  refine .bind (chooseToRetry_keeps _ _) fun retry => ?_
  split
  · exact Leads.weakenBefore doTargetMemoryRwRetry_leads
      fun _ device => implies device
  · refine .getState fun pci => ?_
    split
    · refine .bind pciNextPosedge_keeps fun _ => .getState fun sampled => ?_
      split
      · exact doTargetMemoryReadSplit_leads keep requests bar _ _ _
      · exact Leads.weakenBefore (readData_leads keep bar _ _ _)
          fun _ device => implies device
    · exact Leads.weakenBefore (readData_leads keep bar _ _ _)
        fun _ device => implies device

/--
Either an action of the machine has called callbacks and left it idle, or
nothing has happened to the device.
-/
theorem pciTargetStateMachine_leads :
    Leads (onDevice holdsBefore)
      (pciTargetStateMachine callbacks requestBus)
      (fun state device =>
        idleWith holds state device ∨ holdsBefore device) := by
  refine .bind (.assert _) fun _ => .getState fun pci => ?_
  have acted
      {call : Call User Handle Unit}
      (leads : Leads (onDevice holds) call (idleWith holds)) :
      Leads (onDevice holdsBefore) call fun state device =>
        idleWith holds state device ∨ holdsBefore device :=
    Leads.weaken (Leads.weakenBefore leads fun _ device => implies device)
      fun _ _ => .inl
  have moved (state : TargetState) :
      Leads (onDevice holdsBefore)
        (setTargetState state : Call User Handle Unit) fun state device =>
          idleWith holds state device ∨ holdsBefore device :=
    Leads.weaken (setTargetState_leads state) fun _ _ moved => .inr moved.2
  cases targetAction pci with
  | stay =>
      exact Leads.weaken (.pure ()) fun _ _ => .inr
  | memoryRead bar =>
      exact Leads.weaken (doTargetMemoryRead_leads keep implies requests bar)
        fun _ _ => .inl
  | memoryWrite bar =>
      exact acted (doTargetMemoryWrite_leads keep bar)
  | configRead =>
      exact acted (doTargetConfigRead_leads keep)
  | configWrite =>
      exact acted (doTargetConfigWrite_leads keep)
  | dualAddress =>
      exact Logic.Triple.modifyState fun _ _ => .inr
  | skip =>
      exact moved .busBusy
  | release =>
      exact moved .idle

end Requests

/-! ## Bus requests -/

section Waits

variable (clears : ∀ device, holds device →
  holds { device with breakFlag := false })
variable {stateMachine : Call User Handle Unit}

omit keep in
theorem waitLoop_keeps
    (machineKeeps : KeepsPart (onDevice holds) stateMachine)
    (useIrq : BitVec 64)
    (clks : Nat)
    (mask : BitVec 64) :
    KeepsPart (onDevice holds)
      (waitLoop stateMachine useIrq clks mask) := by
  induction clks generalizing mask with
  | zero =>
      exact .pure _
  | succ clks inductionHypothesis =>
      refine .ite (.pure _) ?_
      refine .bind (exchangeWhileClk_keeps _ _) fun _ => ?_
      refine .bind (exchangeWhileClk_keeps _ _) fun rc => ?_
      refine .ite (.pure _) ?_
      refine .bind machineKeeps fun _ => .getState fun pci => ?_
      exact .ite (.pure _) (inductionHypothesis _)

include clears

omit keep in
theorem simbusPciWaitWith_keeps
    (machineKeeps : KeepsPart (onDevice holds) stateMachine)
    (clks : Nat)
    (irq : Option (BitVec 64)) :
    KeepsPart (onDevice holds)
      (simbusPciWaitWith stateMachine clks irq) := by
  have cleared : KeepsPart (onDevice holds)
      (Program.modifyState fun pci : SimbusPci User Handle =>
        { pci with device := { pci.device with breakFlag := false } }) :=
    Logic.Triple.modifyState fun _ pci => clears pci.device
  refine .ite (.getState fun pci => .pure _) ?_
  refine .bind cleared fun _ => ?_
  refine .bind (waitLoop_keeps machineKeeps _ _ _) fun result => ?_
  cases result <;> exact .pure _

omit keep in
theorem requestLoop_keeps
    (machineKeeps : KeepsPart (onDevice holds) stateMachine)
    (count : Nat) :
    KeepsPart (onDevice holds) (requestLoop stateMachine count) := by
  induction count with
  | zero =>
      exact .abort
  | succ count inductionHypothesis =>
      refine .getState fun pci => .ite ?_ (.pure _)
      exact .bind (simbusPciWaitWith_keeps clears machineKeeps 1 none)
        fun _ => inductionHypothesis

omit keep in
theorem requestBusWith_keeps
    (machineKeeps : KeepsPart (onDevice holds) stateMachine) :
    KeepsPart (onDevice holds) (requestBusWith stateMachine) := by
  have drives (level : Logic4) :
      KeepsPart (onDevice holds) (driveReqN level : Call User Handle Unit) :=
    .unseen (fun _ => rfl) fun _ => rfl
  have waits := requestLoop_keeps clears machineKeeps requestCount
  rw [requestBusWith]
  exact .bind (drives .zero) fun _ => .bind waits fun _ => drives .one

/-- Nested requests are an induction on the depth. -/
theorem pciRequestBus_keeps (stack : Nat) :
    KeepsPart (onDevice holds) (pciRequestBus callbacks stack) := by
  induction stack with
  | zero =>
      exact .abort
  | succ stack inductionHypothesis =>
      have machineKeeps : KeepsPart (onDevice holds)
          (pciTargetStateMachine callbacks (pciRequestBus callbacks stack)) :=
        Leads.weaken
          (pciTargetStateMachine_leads keep (fun _ => id) inductionHypothesis)
          fun _ _ ends => ends.elim And.right id
      exact requestBusWith_keeps clears machineKeeps

end Waits

end

end Simbus.Pci
