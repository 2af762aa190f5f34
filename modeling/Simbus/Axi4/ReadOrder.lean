import Simbus.Axi4.WriteOrder

/-!
# Order of the reads at the slave

The callback of a read is made when the address is accepted, and its data and
response wait for their handshake before the next address is accepted.  This
holds as long as no address comes while ARREADY has no level, which is the
case before the first reset.
-/

namespace Simbus.Axi4

open FourValued Clocked

/-! ## Order -/

/-- The data channel carries what a call has answered. -/
def SlaveCall.SentBy
    (call : SlaveCall)
    (widths : Widths)
    (signals : Axi4Signals) : Prop :=
  call.LiesIn widths signals.rdata ∧ call.resp.CarriedBy signals.rresp

instance
    (call : SlaveCall)
    (widths : Widths)
    (signals : Axi4Signals) : Decidable (call.SentBy widths signals) :=
  inferInstanceAs (Decidable (_ ∧ _))

/--
The call whose data are pending after an edge, if the edge is in order.  A
call is made when an address is accepted and not otherwise, an address is
accepted when nothing is pending, and only what is pending is sent.
-/
def readNext
    (widths : Widths)
    (pending : Option SlaveCall)
    (edge : SlaveEdge) : Option (Option SlaveCall) :=
  if edge.signals.AcceptsRead then
    match pending, readsOf edge.calls with
    | none, [call] => if edge.signals.SendsData then none else some (some call)
    | _, _ => none
  else if readsOf edge.calls ≠ [] then
    none
  else if edge.signals.SendsData then
    match pending with
    | some call => if call.SentBy widths edge.signals then some none else none
    | none => none
  else
    some pending

/-- What is pending after some edges, if all of them are in order. -/
def readPending
    (widths : Widths)
    (edges : List SlaveEdge) : Option (Option SlaveCall) :=
  edges.foldlM (readNext widths) none

@[simp]
theorem readPending_append
    (widths : Widths)
    (edges : List SlaveEdge)
    (edge : SlaveEdge) :
    readPending widths (edges ++ [edge]) =
      (readPending widths edges).bind fun pending =>
        readNext widths pending edge := by
  simp [readPending]

section

variable {User : Type}

/--
The reads since the slave was started or reset are in order, and RVALID says
that the data of a call are pending.
-/
def ReadsInOrder (bus : SimbusAxi4 User) : Prop :=
  ∃ pending, readPending bus.widths bus.edges = some pending ∧
    (bus.rvalid = .one ↔ pending.isSome)

instance (bus : SimbusAxi4 User) : Decidable (ReadsInOrder bus) :=
  match isPending : readPending bus.widths bus.edges with
  | none =>
      .isFalse fun ⟨_, same, _⟩ => by
        rw [isPending] at same
        cases same
  | some pending =>
      decidable_of_iff (bus.rvalid = .one ↔ pending.isSome)
        ⟨fun holds => ⟨pending, isPending, holds⟩, fun ⟨other, same, holds⟩ => by
          rw [isPending, Option.some.injEq] at same
          rwa [same]⟩

/-! ## Condition -/

/-- The edge does not lead the slave into one of its defects. -/
structure SlaveEdge.ReadsApart
    (dev : SlaveDevice User)
    (widths : Widths)
    (edge : SlaveEdge) : Prop where
  ready : edge.signals.ar.valid = .one →
    edge.signals.arready = .zero ∨ edge.signals.arready = .one
  allowed : edge.signals.AcceptsRead →
    dev.AllowsRead widths edge.signals.readSize
  hasCallback : edge.signals.AcceptsRead →
    ReadHasCallback edge.signals.readSize
  inside : edge.signals.AcceptsRead →
    bitOffset widths (edge.signals.readAddr widths) +
      useWid edge.signals.readSize ≤ widths.dataWidth
  succeeds : ∀ call ∈ readsOf edge.calls, call.resp.Succeeds
  writeAllowed : edge.signals.AcceptsAddress →
    dev.AllowsWrite widths (edge.signals.writeAddr widths)
      edge.signals.writeSize

/-! ## Invariant -/

/-- What the slave keeps is what is pending. -/
structure ReadSide.Holds
    (widths : Widths)
    (side : ReadSide)
    (pending : Option SlaveCall) : Prop where
  valid : side.rvalid = .one ↔ pending.isSome
  busy : pending.isSome → side.arready = .zero
  lies : ∀ call, pending = some call → call.LiesIn widths side.rdata
  carried : ∀ call, pending = some call →
    side.rresp0 = call.resp.bits 0 ∧ side.rresp1 = call.resp.bits 1

/-- The invariant of the read channels. -/
structure ReadInvariant
    (dev : SlaveDevice User)
    (bus : SimbusAxi4 User) : Prop where
  device : bus.device = some dev
  latched : (∀ edge ∈ bus.edges, edge.ReadsApart dev bus.widths) →
    bus.wready = .one →
    dev.AllowsWrite bus.widths bus.slave.waddr bus.slave.wsize
  held : (∀ edge ∈ bus.edges, edge.ReadsApart dev bus.widths) →
    ∃ pending, readPending bus.widths bus.edges = some pending ∧
      (Next.start bus).readSide.Holds bus.widths pending

variable {dev : SlaveDevice User}
variable {widths : Widths}
variable {bus : SimbusAxi4 User}
variable {pending : Option SlaveCall}
variable {side : ReadSide}
variable {next : Next User}

theorem ReadSide.Holds.nothing
    (notValid : side.rvalid ≠ .one) :
    side.Holds widths none where
  valid := iff_of_false notValid nofun
  busy := nofun
  lies := nofun
  carried := nofun

/-- An edge without a request. -/
theorem ReadSide.Holds.edge_idle
    {calls : List SlaveCall}
    (holds : (Next.start bus).readSide.Holds widths pending)
    (noCall : readsOf calls = [])
    (noRequest : ¬ bus.AcceptsRead) :
    ∃ pending', readNext widths pending ⟨bus.toAxi4Signals, calls⟩ =
        some pending' ∧
      ((Next.start bus).readSide.sendData bus.toAxi4Signals).Holds widths
        pending' := by
  unfold ReadSide.sendData readNext
  simp only
  rw [if_neg noRequest, if_neg (not_not_intro noCall)]
  by_cases sends : bus.SendsData
  · obtain ⟨call, rfl⟩ :=
      Option.isSome_iff_exists.mp (holds.valid.mp sends.1)
    have sent : call.SentBy widths bus.toAxi4Signals :=
      ⟨holds.lies call rfl, holds.carried call rfl⟩
    rw [if_pos sends, if_pos sends]
    exact ⟨none, if_pos sent, .nothing nofun⟩
  · rw [if_neg sends, if_neg sends]
    exact ⟨pending, rfl, holds⟩

/-- An edge with a request that is served. -/
theorem ReadSide.Holds.edge_request
    {calls : List SlaveCall}
    {call : SlaveCall}
    {served : Served User}
    {rdata : Bits}
    (holds : (Next.start bus).readSide.Holds widths pending)
    (request : bus.AcceptsRead)
    (serves : call.Serves .read (bus.readAddr widths) served)
    (sameCalls : readsOf calls = readsOf served.calls)
    (lies : call.LiesIn widths rdata)
    (succeeds : call.resp.Succeeds) :
    ∃ pending', readNext widths pending ⟨bus.toAxi4Signals, calls⟩ =
        some pending' ∧
      (ReadSide.sendData
        { arready := .zero
          rvalid := .one
          rresp0 := served.resp.lowBit
          rresp1 := served.resp.highBit
          rdata := rdata
          calls := readsOf served.calls }
        bus.toAxi4Signals).Holds widths pending' := by
  have free : pending = none := by
    rw [← Option.not_isSome_iff_eq_none]
    intro isPending
    have busy : bus.arready = .zero := holds.busy isPending
    rw [request.2] at busy
    cases busy
  subst free
  have noSend : ¬ bus.SendsData := fun sends =>
    nomatch holds.valid.mp sends.1
  have only : readsOf calls = [call] := sameCalls.trans serves.reads.1
  refine ⟨some call, ?_, ?_⟩
  · unfold readNext
    simp only [only]
    rw [if_pos request]
    exact if_neg noSend
  · rw [ReadSide.sendData, if_neg noSend]
    exact
      { valid := by simp
        busy := fun _ => rfl
        lies := by
          rintro other ⟨⟩
          exact lies
        carried := by
          rintro other ⟨⟩
          rw [← serves.resp]
          exact call.resp.driven_iff_succeeds.mpr succeeds }

/-- The calls of an edge are those of the request. -/
theorem readsOf_calls
    {requested : Next User}
    (sent : next.readSide =
      requested.readSide.sendData bus.toAxi4Signals) :
    readsOf next.calls = readsOf requested.calls := by
  have same := congrArg ReadSide.calls sent
  rwa [ReadSide.sendData_calls] at same

/-- Every edge of the machine is in order. -/
theorem ReadSide.Holds.edge
    (holds : (Next.start bus).readSide.Holds bus.widths pending)
    (ran : slaveMachine bus = some next)
    (apart : SlaveEdge.ReadsApart dev bus.widths
      ⟨bus.toAxi4Signals, next.calls⟩) :
    ∃ pending', readNext bus.widths pending ⟨bus.toAxi4Signals, next.calls⟩ =
        some pending' ∧
      next.readSide.Holds bus.widths pending' := by
  obtain ⟨before, requested, sameSide, setting, signals, read, sent⟩ :=
    slaveMachine_readSide ran
  have calls := readsOf_calls sent
  simp only [Next.setting, Setting.mk.injEq] at setting
  obtain ⟨_, sameWidths, _⟩ := setting
  have none : readsOf before.calls = [] :=
    congrArg ReadSide.calls sameSide
  rw [sent]
  rcases Next.readRequest_cases read with
    ⟨requests, latch, served, bus', rfl, did, rfl⟩ | ⟨noRequest, rfl⟩
  · rw [signals] at requests
    have request : bus.AcceptsRead :=
      ⟨requests.1, (apart.ready requests.1).resolve_left requests.2⟩
    have onlyServed : readsOf (before.calls ++ served.calls) =
        readsOf served.calls := by
      rw [readsOf, List.filter_append, ← readsOf, none, List.nil_append]
      rfl
    have cases := readData_serves did
    simp only [signals, sameWidths] at cases
    obtain ⟨call, serves, lies⟩ := cases.resolve_left
      fun missing => missing.2 (apart.hasCallback request)
    have only := (calls.trans onlyServed).trans serves.reads.1
    have succeeds : call.resp.Succeeds :=
      apart.succeeds call (only ▸ List.mem_singleton_self call)
    simp only [Next.readSide, onlyServed]
    exact holds.edge_request request serves (calls.trans onlyServed)
      (lies (apart.inside request)) succeeds
  · rw [sameSide]
    refine holds.edge_idle (calls.trans none) ?_
    rw [signals] at noRequest
    rintro ⟨valid, ready⟩
    refine noRequest ⟨valid, ?_⟩
    rw [ready]
    intro isOther
    cases isOther

/-- After an edge an address waits that came then or waited before. -/
theorem slaveMachine_latched
    (ran : slaveMachine bus = some next)
    (ready : next.wready = .one) :
    bus.AcceptsAddress ∧
        next.bus.slave.waddr = bus.writeAddr bus.widths ∧
        next.bus.slave.wsize = bus.writeSize ∨
      bus.wready = .one ∧
        next.bus.slave.waddr = bus.slave.waddr ∧
        next.bus.slave.wsize = bus.slave.wsize := by
  obtain ⟨written, wrote, sent⟩ := slaveMachine_writeSide ran
  have sameReady := congrArg WriteSide.wready sent
  have sameAddr := congrArg WriteSide.waddr sent
  have sameSize := congrArg WriteSide.wsize sent
  rw [WriteSide.sendResponse_wready] at sameReady
  rw [WriteSide.sendResponse_waddr] at sameAddr
  rw [WriteSide.sendResponse_wsize] at sameSize
  change next.wready = _ at sameReady
  change next.bus.slave.waddr = _ at sameAddr
  change next.bus.slave.wsize = _ at sameSize
  rcases Next.writeBeat_cases wrote with
    ⟨_, served, _, rfl⟩ | ⟨_, rfl⟩
  · rw [sameReady] at ready
    cases ready
  · rw [sameReady] at ready
    rw [sameAddr, sameSize]
    by_cases address : bus.AcceptsAddress
    · rw [writeAddress_accepts address]
      exact .inl ⟨address, rfl, rfl⟩
    · rw [(writeAddress_stays address).1] at ready ⊢
      exact .inr ⟨ready, rfl, rfl⟩

theorem ReadInvariant.atEdge
    (invariant : ReadInvariant dev bus)
    (ran : slaveMachine bus = some next) :
    ReadInvariant dev
      (next.finish.recordEdge bus.toAxi4Signals next.calls) := by
  have setting := slaveMachine_setting ran
  simp only [Next.setting, Setting.mk.injEq] at setting
  obtain ⟨sameDevice, sameWidths, sameEdges⟩ := setting
  refine
    { device := sameDevice.trans invariant.device
      latched := ?_
      held := ?_ }
  · intro apart
    simp only [SimbusAxi4.recordEdge, Next.finish, sameWidths, sameEdges,
      List.forall_mem_append, List.forall_mem_singleton] at apart ⊢
    intro ready
    rcases slaveMachine_latched ran ready with
      ⟨address, sameAddr, sameSize⟩ | ⟨wasReady, sameAddr, sameSize⟩
    · rw [sameAddr, sameSize]
      exact apart.2.writeAllowed address
    · rw [sameAddr, sameSize]
      exact invariant.latched apart.1 wasReady
  · intro apart
    simp only [SimbusAxi4.recordEdge, Next.finish, sameWidths, sameEdges,
      List.forall_mem_append, List.forall_mem_singleton] at apart
    obtain ⟨pending, isPending, holds⟩ := invariant.held apart.1
    obtain ⟨pending', isNext, after⟩ := holds.edge ran apart.2
    refine ⟨pending', ?_, ?_⟩
    · simp only [SimbusAxi4.recordEdge, Next.finish, sameWidths, sameEdges,
        readPending_append, isPending, Option.bind_some, isNext]
    · simp only [SimbusAxi4.recordEdge, Next.finish, sameWidths]
      exact
        { valid := after.valid
          busy := after.busy
          lies := after.lies
          carried := after.carried }

/-- An edge at which the machine is stuck does not meet the condition. -/
theorem ReadInvariant.atStuck
    (invariant : ReadInvariant dev bus)
    (stuck : slaveMachine bus = none) :
    ReadInvariant dev (bus.recordEdge bus.toAxi4Signals []) := by
  have impossible : ¬ ∀ edge ∈ bus.edges ++ [⟨bus.toAxi4Signals, []⟩],
      SlaveEdge.ReadsApart dev bus.widths edge := by
    intro apart
    simp only [List.forall_mem_append, List.forall_mem_singleton] at apart
    obtain ⟨before, apart⟩ := apart
    have runs : ∃ next, slaveMachine bus = some next := by
      refine slaveMachine_isSome invariant.device ?_ ?_
      · intro data
        by_cases address : bus.AcceptsAddress
        · have side := writeAddress_accepts address
          have sameAddr := congrArg WriteSide.waddr side
          have sameSize := congrArg WriteSide.wsize side
          change (Next.start bus).writeAddress.bus.slave.waddr = _ at sameAddr
          change (Next.start bus).writeAddress.bus.slave.wsize = _ at sameSize
          rw [sameAddr, sameSize]
          exact apart.writeAllowed address
        · rw [(writeAddress_stays address).2]
          exact invariant.latched before data.2
      · intro valid notLow
        exact apart.allowed
          ⟨valid, (apart.ready valid).resolve_left notLow⟩
    obtain ⟨next, ran⟩ := runs
    rw [stuck] at ran
    cases ran
  exact
    { device := invariant.device
      latched := fun apart => (impossible apart).elim
      held := fun apart => (impossible apart).elim }

theorem readInvariant (dev : SlaveDevice User) :
    SlaveInvariant (ReadInvariant dev) where
  sampled := fun _ _ _ invariant =>
    ⟨invariant.device, invariant.latched, invariant.held⟩
  reset := fun _ invariant =>
    { device := invariant.device
      latched := fun _ => nofun
      held := fun _ => ⟨none, rfl, .nothing nofun⟩ }
  edge := fun _ _ invariant ran => invariant.atEdge ran
  stuck := fun _ invariant stuck => invariant.atStuck stuck

theorem ReadInvariant.inOrder
    (invariant : ReadInvariant dev bus)
    (apart : ∀ edge ∈ bus.edges, edge.ReadsApart dev bus.widths) :
    ReadsInOrder bus := by
  obtain ⟨pending, isPending, holds⟩ := invariant.held apart
  exact ⟨pending, isPending, holds.valid⟩

/--
Whatever the master drives, with or without a reset: at every reply, if no edge
since the slave was started or reset led it into a defect, then the reads are
in order.  The ids have at most `axi4MaxId` bits and there are at most `axi4MaxIrq`
interrupts, as the arrays of the library hold no more.
-/
theorem slave_readsInOrder
    (user : User)
    (widths : Widths)
    (dev : SlaveDevice User) :
    Safe (fun _ => True)
      (fun bus =>
        (∀ edge ∈ bus.edges, edge.ReadsApart dev bus.widths) →
          ReadsInOrder bus)
      (fun bus =>
        (∀ edge ∈ bus.edges, edge.ReadsApart dev bus.widths) →
          ReadsInOrder bus)
      (fun _ _ => False)
      ((simbusAxi4Slave dev).start (SimbusAxi4.init user widths)) := by
  have start : ReadInvariant dev
      { SimbusAxi4.init user widths with device := some dev } :=
    { device := rfl
      latched := fun _ => nofun
      held := fun _ => ⟨none, rfl, .nothing nofun⟩ }
  refine ((readInvariant dev).simbusAxi4Slave rfl start).weaken
    ?_ ?_ fun _ _ => id
  · exact fun bus invariant => invariant.inOrder
  · exact fun bus invariant => invariant.inOrder

end

/-! ## A read before the reset -/

/-- A read request while ARREADY is not driven yet. -/
def earlyRead : List SlaveReply :=
  clockWith byteWidths [.aresetN, .arvalid]

theorem earlyRead_outOfOrder :
    ¬ Safe (fun _ => True) ReadsInOrder (fun _ => True) (fun _ _ => True)
      ((simbusAxi4Slave acceptingDevice).start
        (SimbusAxi4.init () byteWidths)) := by
  intro safe
  have reached := safe earlyRead fun _ _ => trivial
  revert reached
  decide +kernel

end Simbus.Axi4
