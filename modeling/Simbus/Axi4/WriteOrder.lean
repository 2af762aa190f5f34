import Simbus.Axi4.SlaveLoop

/-!
# Order of the writes at the slave

An accepted address waits for its data beat, and the answer of the callback
waits for its handshake.  A master that does not present an address while
another one waits, nor data while a response waits, finds every write carried
out once and answered once.
-/

namespace Simbus.Axi4

open FourValued Clocked

/-! ## Order -/

/-- What has begun on the write channels and is not done. -/
structure WritePending where
  addr : Option (BitVec 64)
  resp : Option Resp
  deriving DecidableEq

namespace WritePending

/-- Nothing has begun. -/
def none : WritePending where
  addr := .none
  resp := .none

/-- A response is transferred only when there is one, and as it is. -/
def respond
    (pending : WritePending)
    (edge : SlaveEdge) : Option WritePending :=
  if edge.signals.SendsResponse then
    match pending.resp with
    | some resp =>
        if resp.CarriedBy edge.signals.bresp then
          some { pending with resp := .none }
        else
          .none
    | .none => .none
  else
    some pending

/--
A data beat makes one call, with the address that waits, and its response must
not find another one.  Without a data beat there is no call.
-/
def serve
    (pending : WritePending)
    (edge : SlaveEdge) : Option WritePending :=
  if edge.signals.AcceptsData then
    match pending.addr, pending.resp, writesOf edge.calls with
    | some addr, .none, [call] =>
        if call.addr = addr then
          some { addr := .none, resp := some call.resp }
        else
          .none
    | _, _, _ => .none
  else if writesOf edge.calls = [] then
    some pending
  else
    .none

/-- An accepted address must not find another one. -/
def accept
    (widths : Widths)
    (pending : WritePending)
    (edge : SlaveEdge) : Option WritePending :=
  if edge.signals.AcceptsAddress then
    match pending.addr with
    | some _ => .none
    | .none => some { pending with addr := some (edge.signals.writeAddr widths) }
  else
    some pending

/-- What is pending after an edge, if the edge is in order. -/
def next
    (widths : Widths)
    (pending : WritePending)
    (edge : SlaveEdge) : Option WritePending := do
  let pending ← pending.respond edge
  let pending ← pending.serve edge
  pending.accept widths edge

section

variable {pending : WritePending}
variable {edge : SlaveEdge}
variable {widths : Widths}

theorem serve_idle
    (noData : ¬ edge.signals.AcceptsData)
    (noCall : writesOf edge.calls = []) :
    pending.serve edge = some pending := by
  rw [serve, if_neg noData, if_pos noCall]

theorem serve_beat
    {call : SlaveCall}
    (data : edge.signals.AcceptsData)
    (addr : pending.addr = some call.addr)
    (resp : pending.resp = .none)
    (calls : writesOf edge.calls = [call]) :
    pending.serve edge =
      some { addr := .none, resp := some call.resp } := by
  rw [serve, if_pos data, addr, resp, calls]
  exact if_pos rfl

theorem accept_idle
    (noAddress : ¬ edge.signals.AcceptsAddress) :
    pending.accept widths edge = some pending := by
  rw [accept, if_neg noAddress]

theorem accept_address
    (address : edge.signals.AcceptsAddress)
    (addr : pending.addr = .none) :
    pending.accept widths edge =
      some { pending with addr := some (edge.signals.writeAddr widths) } := by
  rw [accept, if_pos address, addr]

end

end WritePending

/-- What is pending after some edges, if all of them are in order. -/
def writePending
    (widths : Widths)
    (edges : List SlaveEdge) : Option WritePending :=
  edges.foldlM (WritePending.next widths) .none

@[simp]
theorem writePending_append
    (widths : Widths)
    (edges : List SlaveEdge)
    (edge : SlaveEdge) :
    writePending widths (edges ++ [edge]) =
      (writePending widths edges).bind fun pending =>
        pending.next widths edge := by
  simp [writePending]

section

variable {User : Type}

/--
The writes since the slave was started or reset are in order, and what is
pending is what the slave shows: WREADY for an address without its data,
BVALID for a response.
-/
def WritesInOrder (bus : SimbusAxi4 User) : Prop :=
  ∃ pending, writePending bus.widths bus.edges = some pending ∧
    (bus.wready = .one ↔ pending.addr.isSome) ∧
    (bus.bvalid = .one ↔ pending.resp.isSome)

instance (bus : SimbusAxi4 User) : Decidable (WritesInOrder bus) :=
  match isPending : writePending bus.widths bus.edges with
  | none =>
      .isFalse fun ⟨_, same, _⟩ => by
        rw [isPending] at same
        cases same
  | some pending =>
      decidable_of_iff
        ((bus.wready = .one ↔ pending.addr.isSome) ∧
          (bus.bvalid = .one ↔ pending.resp.isSome))
        ⟨fun holds => ⟨pending, isPending, holds⟩, fun ⟨other, same, holds⟩ => by
          rw [isPending, Option.some.injEq] at same
          rwa [same]⟩

/-! ## Condition -/

/-- The edge does not lead the slave into one of its defects. -/
structure SlaveEdge.WritesApart
    (dev : SlaveDevice User)
    (widths : Widths)
    (edge : SlaveEdge) : Prop where
  address : edge.signals.AcceptsAddress → edge.signals.wready ≠ .one
  data : edge.signals.AcceptsData → edge.signals.bvalid ≠ .one
  allowed : edge.signals.AcceptsAddress →
    dev.AllowsWrite widths (edge.signals.writeAddr widths)
      edge.signals.writeSize
  hasCallback : edge.signals.AcceptsAddress →
    WriteHasCallback edge.signals.writeSize
  succeeds : ∀ call ∈ writesOf edge.calls, call.resp.Succeeds
  readAllowed : edge.signals.ar.valid = .one →
    edge.signals.arready ≠ .zero →
    dev.AllowsRead widths edge.signals.readSize

/-! ## Invariant -/

/-- What the slave keeps is what is pending. -/
structure WriteSide.Holds
    (dev : SlaveDevice User)
    (widths : Widths)
    (side : WriteSide)
    (pending : WritePending) : Prop where
  address : side.wready = .one ↔ pending.addr.isSome
  response : side.bvalid = .one ↔ pending.resp.isSome
  latched : ∀ addr, pending.addr = some addr →
    side.waddr = addr ∧ dev.AllowsWrite widths addr side.wsize ∧
      WriteHasCallback side.wsize
  carried : ∀ resp, pending.resp = some resp →
    side.bresp0 = resp.bits 0 ∧ side.bresp1 = resp.bits 1

/-- The invariant of the write channels. -/
structure WriteInvariant
    (dev : SlaveDevice User)
    (bus : SimbusAxi4 User) : Prop where
  device : bus.device = some dev
  held : (∀ edge ∈ bus.edges, edge.WritesApart dev bus.widths) →
    ∃ pending, writePending bus.widths bus.edges = some pending ∧
      (Next.start bus).writeSide.Holds dev bus.widths pending

variable {dev : SlaveDevice User}
variable {widths : Widths}
variable {bus : SimbusAxi4 User}
variable {pending : WritePending}
variable {side : WriteSide}
variable {next : Next User}

theorem WriteSide.Holds.nothing
    (notReady : side.wready ≠ .one)
    (notValid : side.bvalid ≠ .one) :
    side.Holds dev widths .none where
  address := iff_of_false notReady nofun
  response := iff_of_false notValid nofun
  latched := nofun
  carried := nofun

/-- What is pending after the response channel. -/
def WritePending.sendResponse
    (pending : WritePending)
    (signals : Axi4Signals) : WritePending :=
  if signals.SendsResponse then
    { pending with resp := .none }
  else
    pending

theorem WriteSide.Holds.respond
    {calls : List SlaveCall}
    (holds : (Next.start bus).writeSide.Holds dev widths pending) :
    pending.respond ⟨bus.toAxi4Signals, calls⟩ =
      some (pending.sendResponse bus.toAxi4Signals) := by
  rw [WritePending.respond, WritePending.sendResponse]
  split
  · rename_i sends
    obtain ⟨resp, isPending⟩ :=
      Option.isSome_iff_exists.mp (holds.response.mp sends.1)
    rw [isPending]
    exact if_pos (holds.carried resp isPending)
  · rfl

theorem WriteSide.Holds.sendResponse
    (holds : side.Holds dev widths pending)
    (signals : Axi4Signals) :
    (side.sendResponse signals).Holds dev widths
      (pending.sendResponse signals) := by
  rw [WriteSide.sendResponse, WritePending.sendResponse]
  split
  · exact
      { address := holds.address
        response := by simp
        latched := holds.latched
        carried := by
          intro resp isPending
          cases isPending }
  · exact holds

theorem writeAddress_accepts (accepts : bus.AcceptsAddress) :
    (Next.start bus).writeAddress.writeSide =
      { (Next.start bus).writeSide with
        wready := .one
        waddr := bus.writeAddr bus.widths
        wsize := bus.writeSize } := by
  have started : (Next.start bus).bus.aw.valid = .one ∧
      (Next.start bus).bus.awready = .one := accepts
  rw [Next.writeAddress]
  simp only
  rw [if_pos started]
  rfl

/-- The address channel puts an address where there was none. -/
theorem WriteSide.Holds.accept
    (holds : (Next.start bus).writeSide.Holds dev bus.widths pending)
    (accepts : bus.AcceptsAddress)
    (allowed : dev.AllowsWrite bus.widths (bus.writeAddr bus.widths)
      bus.writeSize)
    (hasCallback : WriteHasCallback bus.writeSize) :
    (Next.start bus).writeAddress.writeSide.Holds dev bus.widths
      { pending with addr := some (bus.writeAddr bus.widths) } := by
  rw [writeAddress_accepts accepts]
  exact
    { address := by simp
      response := holds.response
      latched := by
        rintro addr ⟨⟩
        exact ⟨rfl, allowed, hasCallback⟩
      carried := holds.carried }

/-- Without an address nothing changes but AWREADY. -/
theorem writeAddress_stays (stays : ¬ bus.AcceptsAddress) :
    (Next.start bus).writeAddress.writeSide = (Next.start bus).writeSide ∧
      (Next.start bus).writeAddress.bus = bus := by
  have started : ¬ ((Next.start bus).bus.aw.valid = .one ∧
      (Next.start bus).bus.awready = .one) := stays
  rw [Next.writeAddress]
  simp only
  rw [if_neg started]
  split <;> exact ⟨rfl, rfl⟩

/-- A data beat passes from the address to the response. -/
theorem WriteSide.Holds.serve
    {served : Served User}
    {call : SlaveCall}
    (serves : call.Serves .write bus.slave.waddr served)
    (succeeds : call.resp.Succeeds) :
    WriteSide.Holds dev widths
      { (Next.start bus).writeSide with
        wready := .zero
        bvalid := .one
        bresp0 := served.resp.lowBit
        bresp1 := served.resp.highBit
        calls := writesOf served.calls }
      { addr := none, resp := some call.resp } where
  address := by simp
  response := by simp
  latched := nofun
  carried := by
    rintro resp ⟨⟩
    rw [← serves.resp]
    exact call.resp.driven_iff_succeeds.mpr succeeds

/-- The calls of an edge are those of the data beat. -/
theorem writesOf_calls
    {written : Next User}
    (sent : next.writeSide =
      written.writeSide.sendResponse bus.toAxi4Signals) :
    writesOf next.calls = writesOf written.calls := by
  have same := congrArg WriteSide.calls sent
  rwa [WriteSide.sendResponse_calls] at same

/-- The response channel does not touch the address that waits. -/
theorem sendResponse_addr
    (pending : WritePending)
    (signals : Axi4Signals) :
    (pending.sendResponse signals).addr = pending.addr := by
  rw [WritePending.sendResponse]
  split <;> rfl

theorem sendResponse_withAddr
    (pending : WritePending)
    (signals : Axi4Signals)
    (addr : Option (BitVec 64)) :
    WritePending.sendResponse { pending with addr := addr } signals =
      { pending.sendResponse signals with addr := addr } := by
  rw [WritePending.sendResponse, WritePending.sendResponse]
  split <;> rfl

/-- An edge at which an address is accepted. -/
theorem WriteSide.Holds.edge_address
    {calls : List SlaveCall}
    (holds : (Next.start bus).writeSide.Holds dev bus.widths pending)
    (noCall : writesOf calls = [])
    (address : bus.AcceptsAddress)
    (apart : SlaveEdge.WritesApart dev bus.widths
      ⟨bus.toAxi4Signals, calls⟩) :
    ∃ pending', pending.next bus.widths ⟨bus.toAxi4Signals, calls⟩ =
        some pending' ∧
      ((Next.start bus).writeAddress.writeSide.sendResponse
        bus.toAxi4Signals).Holds dev bus.widths pending' := by
  have notReady := apart.address address
  have noData : ¬ bus.AcceptsData := fun data => notReady data.2
  have noAddr : (pending.sendResponse bus.toAxi4Signals).addr = none := by
    rw [sendResponse_addr]
    exact Option.not_isSome_iff_eq_none.mp (mt holds.address.mpr notReady)
  have accepted := holds.accept address (apart.allowed address)
    (apart.hasCallback address)
  have isNext : (pending.sendResponse bus.toAxi4Signals).accept bus.widths
        ⟨bus.toAxi4Signals, calls⟩ =
      some
        { pending.sendResponse bus.toAxi4Signals with
          addr := some (bus.writeAddr bus.widths) } :=
    WritePending.accept_address address noAddr
  refine ⟨_, ?_, accepted.sendResponse bus.toAxi4Signals⟩
  rw [WritePending.next, holds.respond]
  simp only [Option.bind_eq_bind, Option.bind_some]
  rw [WritePending.serve_idle noData noCall, Option.bind_some, isNext]
  exact congrArg some (sendResponse_withAddr pending bus.toAxi4Signals
    (some (bus.writeAddr bus.widths))).symm

/-- An edge at which neither an address nor data are accepted. -/
theorem WriteSide.Holds.edge_idle
    {calls : List SlaveCall}
    (holds : (Next.start bus).writeSide.Holds dev bus.widths pending)
    (noCall : writesOf calls = [])
    (noAddress : ¬ bus.AcceptsAddress)
    (noData : ¬ bus.AcceptsData) :
    ∃ pending', pending.next bus.widths ⟨bus.toAxi4Signals, calls⟩ =
        some pending' ∧
      ((Next.start bus).writeSide.sendResponse bus.toAxi4Signals).Holds dev
        bus.widths pending' := by
  refine ⟨_, ?_, holds.sendResponse bus.toAxi4Signals⟩
  rw [WritePending.next, holds.respond]
  simp only [Option.bind_eq_bind, Option.bind_some]
  rw [WritePending.serve_idle noData noCall, Option.bind_some]
  exact WritePending.accept_idle noAddress

/-- An edge at which data are accepted. -/
theorem WriteSide.Holds.edge_data
    {calls : List SlaveCall}
    {served : Served User}
    (holds : (Next.start bus).writeSide.Holds dev bus.widths pending)
    (ran : writeData bus = some served)
    (sameCalls : writesOf calls = writesOf served.calls)
    (noAddress : ¬ bus.AcceptsAddress)
    (data : bus.AcceptsData)
    (apart : SlaveEdge.WritesApart dev bus.widths
      ⟨bus.toAxi4Signals, calls⟩) :
    ∃ pending', pending.next bus.widths ⟨bus.toAxi4Signals, calls⟩ =
        some pending' ∧
      (WriteSide.sendResponse
        { (Next.start bus).writeSide with
          wready := .zero
          bvalid := .one
          bresp0 := served.resp.lowBit
          bresp1 := served.resp.highBit
          calls := writesOf served.calls }
        bus.toAxi4Signals).Holds dev bus.widths pending' := by
  have noSend : ¬ bus.SendsResponse := fun sends => apart.data data sends.1
  have noResp : pending.resp = none :=
    Option.not_isSome_iff_eq_none.mp (mt holds.response.mpr (apart.data data))
  obtain ⟨addr, isAddr⟩ :=
    Option.isSome_iff_exists.mp (holds.address.mp data.2)
  obtain ⟨latched, _, hasCallback⟩ := holds.latched addr isAddr
  obtain ⟨call, serves⟩ := (writeData_serves ran).resolve_left
    fun ⟨_, noCallback⟩ => noCallback hasCallback
  have only : writesOf calls = [call] := sameCalls.trans serves.writes.1
  have succeeds : call.resp.Succeeds :=
    apart.succeeds call (only ▸ List.mem_singleton_self call)
  have sameAddr : pending.addr = some call.addr := by
    rw [isAddr, serves.addr, ← latched]
    rfl
  refine ⟨⟨none, some call.resp⟩, ?_, ?_⟩
  · rw [WritePending.next, holds.respond, WritePending.sendResponse,
      if_neg noSend]
    simp only [Option.bind_eq_bind, Option.bind_some]
    rw [WritePending.serve_beat data sameAddr noResp only, Option.bind_some]
    exact WritePending.accept_idle noAddress
  · rw [WriteSide.sendResponse, if_neg noSend]
    exact WriteSide.Holds.serve serves succeeds

/-- Every edge of the machine is in order. -/
theorem WriteSide.Holds.edge
    (holds : (Next.start bus).writeSide.Holds dev bus.widths pending)
    (ran : slaveMachine bus = some next)
    (apart : SlaveEdge.WritesApart dev bus.widths
      ⟨bus.toAxi4Signals, next.calls⟩) :
    ∃ pending', pending.next bus.widths ⟨bus.toAxi4Signals, next.calls⟩ =
        some pending' ∧
      next.writeSide.Holds dev bus.widths pending' := by
  obtain ⟨written, wrote, sent⟩ := slaveMachine_writeSide ran
  have calls := writesOf_calls sent
  have signals := Next.writeAddress_signals (Next.start bus)
  rw [sent]
  by_cases address : bus.AcceptsAddress
  · rcases Next.writeBeat_cases wrote with ⟨data, _⟩ | ⟨_, rfl⟩
    · rw [signals] at data
      exact (apart.address address data.2).elim
    · rw [Next.writeAddress_calls] at calls
      exact holds.edge_address calls address apart
  · obtain ⟨sameSide, sameBus⟩ := writeAddress_stays address
    rcases Next.writeBeat_cases wrote with
      ⟨data, served, ran', rfl⟩ | ⟨noData, rfl⟩
    · rw [signals] at data
      rw [sameBus] at ran'
      rw [Next.writeAddress_calls] at calls
      have held := holds.edge_data ran' calls address data apart
      simp only [Next.writeSide, sameBus, Next.writeAddress_calls]
      exact held
    · rw [signals] at noData
      rw [Next.writeAddress_calls] at calls
      rw [sameSide]
      exact holds.edge_idle calls address noData

/-- What a record of the machine keeps is what the machine has come to. -/
theorem recorded_writeSide (next : Next User) (signals : Axi4Signals) :
    (Next.start (next.finish.recordEdge signals next.calls)).writeSide =
      { next.writeSide with calls := [] } :=
  rfl

theorem WriteInvariant.atEdge
    (invariant : WriteInvariant dev bus)
    (ran : slaveMachine bus = some next) :
    WriteInvariant dev
      (next.finish.recordEdge bus.toAxi4Signals next.calls) := by
  have setting := slaveMachine_setting ran
  simp only [Next.setting, Setting.mk.injEq] at setting
  obtain ⟨sameDevice, sameWidths, sameEdges⟩ := setting
  refine
    { device := sameDevice.trans invariant.device
      held := ?_ }
  intro apart
  simp only [SimbusAxi4.recordEdge, Next.finish, sameWidths, sameEdges,
    List.forall_mem_append, List.forall_mem_singleton] at apart
  obtain ⟨pending, isPending, holds⟩ := invariant.held apart.1
  obtain ⟨pending', isNext, after⟩ := holds.edge ran apart.2
  refine ⟨pending', ?_, ?_⟩
  · simp only [SimbusAxi4.recordEdge, Next.finish, sameWidths, sameEdges,
      writePending_append, isPending, Option.bind_some, isNext]
  · rw [recorded_writeSide]
    simp only [SimbusAxi4.recordEdge, Next.finish, sameWidths]
    exact
      { address := after.address
        response := after.response
        latched := after.latched
        carried := after.carried }

/-- An edge at which the machine is stuck does not meet the condition. -/
theorem WriteInvariant.atStuck
    (invariant : WriteInvariant dev bus)
    (stuck : slaveMachine bus = none) :
    WriteInvariant dev (bus.recordEdge bus.toAxi4Signals []) := by
  refine
    { device := invariant.device
      held := ?_ }
  intro apart
  simp only [SimbusAxi4.recordEdge, List.forall_mem_append,
    List.forall_mem_singleton] at apart
  obtain ⟨pending, isPending, holds⟩ := invariant.held apart.1
  have runs : ∃ next, slaveMachine bus = some next := by
    refine slaveMachine_isSome invariant.device ?_ apart.2.readAllowed
    intro data
    have noAddress : ¬ bus.AcceptsAddress := fun address =>
      apart.2.address address data.2
    rw [(writeAddress_stays noAddress).2]
    obtain ⟨addr, isAddr⟩ :=
      Option.isSome_iff_exists.mp (holds.address.mp data.2)
    obtain ⟨latched, allowed, _⟩ := holds.latched addr isAddr
    rw [← latched] at allowed
    exact allowed
  obtain ⟨next, ran⟩ := runs
  rw [stuck] at ran
  cases ran

theorem WriteInvariant.inOrder
    (invariant : WriteInvariant dev bus)
    (apart : ∀ edge ∈ bus.edges, edge.WritesApart dev bus.widths) :
    WritesInOrder bus := by
  obtain ⟨pending, isPending, holds⟩ := invariant.held apart
  exact ⟨pending, isPending, holds.address, holds.response⟩

theorem writeInvariant (dev : SlaveDevice User) :
    SlaveInvariant (WriteInvariant dev) where
  sampled := fun _ _ _ invariant => ⟨invariant.device, invariant.held⟩
  reset := fun _ invariant =>
    { device := invariant.device
      held := fun _ => ⟨.none, rfl, .nothing nofun nofun⟩ }
  edge := fun _ _ invariant ran => invariant.atEdge ran
  stuck := fun _ invariant stuck => invariant.atStuck stuck

/--
Whatever the master drives: at every reply, if no edge since the slave was
started or reset led it into a defect, then the writes are in order.  The ids have at
most `axi4MaxId` bits and there are at most `axi4MaxIrq` interrupts, as the arrays of
the library hold no more.
-/
theorem slave_writesInOrder
    (user : User)
    (widths : Widths)
    (dev : SlaveDevice User) :
    Safe (fun _ => True)
      (fun bus =>
        (∀ edge ∈ bus.edges, edge.WritesApart dev bus.widths) →
          WritesInOrder bus)
      (fun bus =>
        (∀ edge ∈ bus.edges, edge.WritesApart dev bus.widths) →
          WritesInOrder bus)
      (fun _ _ => False)
      ((simbusAxi4Slave dev).start (SimbusAxi4.init user widths)) := by
  have start : WriteInvariant dev
      { SimbusAxi4.init user widths with device := some dev } :=
    { device := rfl
      held := fun _ => ⟨.none, rfl, .nothing nofun nofun⟩ }
  refine ((writeInvariant dev).simbusAxi4Slave rfl start).weaken
    ?_ ?_ fun _ _ => id
  · exact fun bus invariant => invariant.inOrder
  · exact fun bus invariant => invariant.inOrder

end

/-! ## A master that does not wait -/

/-- The widths of a small bus. -/
def byteWidths : Widths where
  dataWidth := 8
  addrWidth := 8
  widWidth := 4
  ridWidth := 4
  irqWidth := 0

/-- A slave that takes every write and reads zeros. -/
def acceptingDevice : SlaveDevice Unit where
  write64 := some fun _ _ _ user => (.okay, user)
  write32 := some fun _ _ _ user => (.okay, user)
  write16 := some fun _ _ _ user => (.okay, user)
  write8 := some fun _ _ _ user => (.okay, user)
  read64 := some fun _ _ user => (.okay, 0, user)
  read32 := some fun _ _ user => (.okay, 0, user)
  read16 := some fun _ _ user => (.okay, 0, user)
  read8 := some fun _ _ user => (.okay, 0, user)

/-- All signals of the master are 0. -/
def lowSignals (widths : Widths) : MasterSignal → Text := fun signal =>
  List.replicate ((SimbusAxi4.masterLength widths signal).getD 1) .zero

/-- A clock at whose edge some signals of the master are 1. -/
def clockWith
    (widths : Widths)
    (high : List MasterSignal) : List SlaveReply :=
  let text := fun signal =>
    if signal ∈ high then [.one] else lowSignals widths signal
  [.until .zero text, .until .one text]

/-- Two writes, the second one before the response of the first is taken. -/
def overlappingWrites : List SlaveReply :=
  clockWith byteWidths [] ++
    clockWith byteWidths [.aresetN, .awvalid] ++
    clockWith byteWidths [.aresetN, .wvalid] ++
    clockWith byteWidths [.aresetN] ++
    clockWith byteWidths [.aresetN, .awvalid] ++
    clockWith byteWidths [.aresetN, .wvalid]

theorem overlappingWrites_outOfOrder :
    ¬ Safe (fun _ => True) WritesInOrder (fun _ => True) (fun _ _ => True)
      ((simbusAxi4Slave acceptingDevice).start
        (SimbusAxi4.init () byteWidths)) := by
  intro safe
  have reached := safe overlappingWrites fun _ _ => trivial
  revert reached
  decide +kernel

end Simbus.Axi4
