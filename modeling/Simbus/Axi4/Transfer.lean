import Simbus.Axi4.Link

/-!
# One access over the bus

Between accesses the bus is at rest.  A write takes three periods of the clock
and a read takes two, in the order address, data, response; then the bus is at
rest again.
-/

namespace Simbus.Axi4

open FourValued Clocked

section

variable {User Device : Type}

/-! ## Rest -/

/-- A master that drives these values. -/
structure MasterDrives
    (master : SimbusAxi4 User)
    (awvalid wvalid bready arvalid rready : Logic4) : Prop where
  aclk : master.aclk ≠ .zero
  awvalid : master.aw.valid = awvalid
  wvalid : master.wvalid = wvalid
  bready : master.bready = bready
  arvalid : master.ar.valid = arvalid
  rready : master.rready = rready

/-- The master transfers nothing. -/
abbrev MasterRests (master : SimbusAxi4 User) : Prop :=
  MasterDrives master .zero .zero .zero .zero .zero

/-- The slave has nothing to transfer. -/
structure SlaveIdle
    (dev : SlaveDevice Device)
    (slave : SimbusAxi4 Device) : Prop where
  aclk : slave.aclk ≠ .zero
  device : slave.device = some dev
  awready : slave.awready ≠ .zero
  bvalid : slave.bvalid ≠ .one
  rvalid : slave.rvalid ≠ .one
  wprot : slave.slave.wprot = 0
  rprot : slave.slave.rprot = 0

/-- A slave that drives these values. -/
structure SlaveDrives
    (dev : SlaveDevice Device)
    (slave : SimbusAxi4 Device)
    (awready wready bvalid arready rvalid : Logic4) : Prop where
  aclk : slave.aclk ≠ .zero
  device : slave.device = some dev
  awready : slave.awready = awready
  wready : slave.wready = wready
  bvalid : slave.bvalid = bvalid
  arready : slave.arready = arready
  rvalid : slave.rvalid = rvalid
  bid : slave.bid 0 ≠ .one
  wprot : slave.slave.wprot = 0
  rprot : slave.slave.rprot = 0

/-- The slave is ready for an address of either kind. -/
abbrev SlaveRests
    (dev : SlaveDevice Device)
    (slave : SimbusAxi4 Device) : Prop :=
  SlaveDrives dev slave .one .zero .zero .one .zero

/-- Nothing has happened to the slave but edges of the clock. -/
structure Unmoved (slave later : SimbusAxi4 Device) : Prop where
  aclk : later.aclk ≠ .zero
  device : later.device = slave.device
  awready : later.awready = slave.awready
  wready : later.wready = slave.wready
  bvalid : later.bvalid = slave.bvalid
  bid : later.bid = slave.bid
  arready : later.arready = slave.arready
  rvalid : later.rvalid = slave.rvalid
  latch : later.slave = slave.slave
  widths : later.widths = slave.widths
  user : later.user = slave.user
  calls : later.calls = slave.calls

section

variable {dev : SlaveDevice Device}
variable {slave later : SimbusAxi4 Device}

theorem Unmoved.idle
    (unmoved : Unmoved slave later)
    (idle : SlaveIdle dev slave) :
    SlaveIdle dev later where
  aclk := unmoved.aclk
  device := unmoved.device.trans idle.device
  awready := unmoved.awready ▸ idle.awready
  bvalid := unmoved.bvalid ▸ idle.bvalid
  rvalid := unmoved.rvalid ▸ idle.rvalid
  wprot := unmoved.latch ▸ idle.wprot
  rprot := unmoved.latch ▸ idle.rprot

theorem Unmoved.drives
    {awready wready bvalid arready rvalid : Logic4}
    (unmoved : Unmoved slave later)
    (drives : SlaveDrives dev slave awready wready bvalid arready rvalid) :
    SlaveDrives dev later awready wready bvalid arready rvalid where
  aclk := unmoved.aclk
  device := unmoved.device.trans drives.device
  awready := unmoved.awready.trans drives.awready
  wready := unmoved.wready.trans drives.wready
  bvalid := unmoved.bvalid.trans drives.bvalid
  arready := unmoved.arready.trans drives.arready
  rvalid := unmoved.rvalid.trans drives.rvalid
  bid := unmoved.bid ▸ drives.bid
  wprot := unmoved.latch ▸ drives.wprot
  rprot := unmoved.latch ▸ drives.rprot

theorem SlaveDrives.idle
    (rests : SlaveRests dev slave) :
    SlaveIdle dev slave where
  aclk := rests.aclk
  device := rests.device
  awready := rests.awready ▸ nofun
  bvalid := rests.bvalid ▸ nofun
  rvalid := rests.rvalid ▸ nofun
  wprot := rests.wprot
  rprot := rests.rprot

end

/-! ## Edges of an access -/

section Edges

variable {bus : SimbusAxi4 Device}

/-- The stages of the machine, as far as they change nothing. -/
theorem writeAddress_rests
    (awvalid : bus.aw.valid = .zero)
    (ready : ¬ (bus.awready = .zero ∧ bus.wready = .zero)) :
    (Next.start bus).writeAddress = Next.start bus := by
  simp [Next.start, Next.writeAddress, awvalid, ready]

theorem writeBeat_rests
    {next : Next Device}
    (noData : ¬ next.bus.AcceptsData) :
    next.writeBeat = some next :=
  if_neg noData

theorem writeResponse_rests
    {next : Next Device}
    (noResponse : ¬ next.bus.SendsResponse) :
    next.writeResponse = next :=
  if_neg noResponse

theorem readRequest_rests
    {next : Next Device}
    (arvalid : next.bus.ar.valid = .zero) :
    next.readRequest = some next := by
  simp [Next.readRequest, arvalid]

theorem readBeat_rests
    {next : Next Device}
    (noData : ¬ next.bus.SendsData) :
    next.readBeat = next :=
  if_neg noData

theorem slaveMachine_rests
    (awvalid : bus.aw.valid = .zero)
    (wvalid : bus.wvalid = .zero)
    (arvalid : bus.ar.valid = .zero)
    (awready : bus.awready ≠ .zero)
    (bvalid : bus.bvalid ≠ .one)
    (rvalid : bus.rvalid ≠ .one) :
    slaveMachine bus = some (Next.start bus) := by
  rw [slaveMachine, writeAddress_rests awvalid (by simp [awready])]
  simp [Next.start, writeBeat_rests, writeResponse_rests, readRequest_rests,
    readBeat_rests, Axi4Signals.AcceptsData, Axi4Signals.SendsResponse,
    Axi4Signals.SendsData, wvalid, arvalid, bvalid, rvalid]

theorem slaveMachine_takesAddress
    (awvalid : bus.aw.valid = .one)
    (arvalid : bus.ar.valid = .zero)
    (awready : bus.awready = .one)
    (wready : bus.wready = .zero)
    (bvalid : bus.bvalid ≠ .one)
    (rvalid : bus.rvalid ≠ .one) :
    slaveMachine bus = some
      { Next.start bus with
        bus :=
          { bus with
            slave :=
              { bus.slave with
                waddr := bus.writeAddr bus.widths
                wsize := bus.writeSize
                wlen := bitsToUint 8 8 bus.aw.len } }
        awready := .zero
        wready := .one } := by
  have address : (Next.start bus).writeAddress =
      { Next.start bus with
        bus :=
          { bus with
            slave :=
              { bus.slave with
                waddr := bus.writeAddr bus.widths
                wsize := bus.writeSize
                wlen := bitsToUint 8 8 bus.aw.len } }
        awready := .zero
        wready := .one } :=
    if_pos ⟨awvalid, awready⟩
  rw [slaveMachine, address]
  simp [Next.start, writeBeat_rests, writeResponse_rests, readRequest_rests,
    readBeat_rests, Axi4Signals.AcceptsData, Axi4Signals.SendsResponse,
    Axi4Signals.SendsData, wready, arvalid, bvalid, rvalid]

theorem slaveMachine_takesData
    (bus : SimbusAxi4 Device)
    (awvalid : bus.aw.valid = .zero)
    (wvalid : bus.wvalid = .one)
    (arvalid : bus.ar.valid = .zero)
    (wready : bus.wready = .one)
    (bvalid : bus.bvalid ≠ .one)
    (rvalid : bus.rvalid ≠ .one) :
    slaveMachine bus = (writeData bus).map fun served =>
      { Next.start bus with
        bus := { bus with user := served.user }
        calls := served.calls
        wready := .zero
        bvalid := .one
        bresp0 := served.resp.lowBit
        bresp1 := served.resp.highBit } := by
  have beat : (Next.start bus).writeBeat =
      (writeData bus).bind fun served => some
        { Next.start bus with
          bus := { bus with user := served.user }
          calls := [] ++ served.calls
          wready := .zero
          bvalid := .one
          bresp0 := served.resp.lowBit
          bresp1 := served.resp.highBit } :=
    if_pos ⟨wvalid, wready⟩
  rw [slaveMachine, writeAddress_rests awvalid (by simp [wready]), beat]
  cases writeData bus with
  | none =>
      rfl
  | some served =>
      simp [Next.start, writeResponse_rests, readRequest_rests,
        readBeat_rests, Axi4Signals.SendsResponse, Axi4Signals.SendsData,
        arvalid, bvalid, rvalid]

theorem slaveMachine_givesResponse
    (awvalid : bus.aw.valid = .zero)
    (wvalid : bus.wvalid = .zero)
    (arvalid : bus.ar.valid = .zero)
    (bvalid : bus.bvalid = .one)
    (bready : bus.bready = .one)
    (rvalid : bus.rvalid ≠ .one) :
    slaveMachine bus = some
      { Next.start bus with
        awready := .one
        bvalid := .zero
        bresp0 := .x
        bresp1 := .x } := by
  have address : (Next.start bus).writeAddress =
      { Next.start bus with
        awready := (Next.start bus).writeAddress.awready } := by
    by_cases low : bus.awready = .zero ∧ bus.wready = .zero
    · simp [Next.writeAddress, Next.start, awvalid, low]
    · simp [Next.writeAddress, Next.start, awvalid, low]
  rw [slaveMachine, address]
  simp [Next.start, writeBeat_rests, Next.writeResponse, readRequest_rests,
    readBeat_rests, Axi4Signals.AcceptsData, Axi4Signals.SendsData, wvalid,
    arvalid, bvalid, bready, rvalid]

/-- The slave after it has taken a read address. -/
def takeReadAddress (bus : SimbusAxi4 Device) : SimbusAxi4 Device :=
  { bus with
    slave :=
      { bus.slave with
        raddr := bus.readAddr bus.widths
        rsize := bus.readSize
        rlen := bitsToUint 8 8 bus.ar.len } }

theorem slaveMachine_takesRead
    (bus : SimbusAxi4 Device)
    (awvalid : bus.aw.valid = .zero)
    (wvalid : bus.wvalid = .zero)
    (arvalid : bus.ar.valid = .one)
    (awready : bus.awready = .one)
    (bvalid : bus.bvalid ≠ .one)
    (arready : bus.arready = .one)
    (rvalid : bus.rvalid ≠ .one) :
    slaveMachine bus = (readData (takeReadAddress bus)).map
      fun (served, after) =>
        { Next.start bus with
          bus := { after with user := served.user }
          calls := served.calls
          arready := .zero
          rvalid := .one
          rresp0 := served.resp.lowBit
          rresp1 := served.resp.highBit } := by
  have request : (Next.start bus).readRequest =
      (readData (takeReadAddress bus)).bind fun (served, after) => some
        { Next.start bus with
          bus := { after with user := served.user }
          calls := [] ++ served.calls
          arready := .zero
          rvalid := .one
          rresp0 := served.resp.lowBit
          rresp1 := served.resp.highBit } :=
    if_pos ⟨arvalid, by simp [Next.start, arready]⟩
  have noData : ¬ (Next.start bus).bus.AcceptsData := by
    simp [Next.start, Axi4Signals.AcceptsData, wvalid]
  have noResponse : ¬ (Next.start bus).bus.SendsResponse := by
    simp [Next.start, Axi4Signals.SendsResponse, bvalid]
  rw [slaveMachine, writeAddress_rests awvalid (by simp [awready]),
    writeBeat_rests noData]
  simp only [Option.bind_eq_bind, Option.bind_some,
    writeResponse_rests noResponse, request]
  cases did : readData (takeReadAddress bus) with
  | none =>
      rfl
  | some result =>
      obtain ⟨served, after⟩ := result
      have same := readData_keeps did
      have noSend : ¬ after.SendsData := by
        rw [same]
        simp [takeReadAddress, Axi4Signals.SendsData, rvalid]
      simp only [Option.bind_some, Option.map_some, List.nil_append]
      rw [readBeat_rests noSend]

theorem slaveMachine_givesData
    (awvalid : bus.aw.valid = .zero)
    (wvalid : bus.wvalid = .zero)
    (arvalid : bus.ar.valid = .zero)
    (awready : bus.awready = .one)
    (bvalid : bus.bvalid ≠ .one)
    (rvalid : bus.rvalid = .one)
    (rready : bus.rready = .one) :
    slaveMachine bus = some
      { Next.start bus with rvalid := .zero, arready := .one } := by
  rw [slaveMachine, writeAddress_rests awvalid (by simp [awready])]
  simp [Next.start, writeBeat_rests, writeResponse_rests, readRequest_rests,
    Next.readBeat, Axi4Signals.AcceptsData, Axi4Signals.SendsResponse,
    wvalid, arvalid, bvalid, rvalid, rready]

end Edges

/-! ## Periods -/

section Periods

variable {server : Widths}
variable {dev : SlaveDevice Device}
variable {master : SimbusAxi4 User}
variable {slave : SimbusAxi4 Device}

theorem finish_start (bus : SimbusAxi4 Device) :
    (Next.start bus).finish = bus := by
  have same : ∀ bits : Bits, Next.putResp (bits 0) (bits 1) bits = bits := by
    intro bits
    funext idx
    match idx with
    | 0 => rfl
    | 1 => rfl
    | _ + 2 => rfl
  simp only [Next.finish, Next.start, same]

/-- What a master hears changes nothing of what it drives. -/
theorem MasterDrives.hear
    {awvalid wvalid bready arvalid rready : Logic4}
    (drives : MasterDrives master awvalid wvalid bready arvalid rready)
    (compatible : Compatible server master.widths slave.widths) :
    MasterDrives (master.hear server slave .one)
      awvalid wvalid bready arvalid rready := by
  rw [hear_eq compatible]
  exact
    { aclk := nofun
      awvalid := drives.awvalid
      wvalid := drives.wvalid
      bready := drives.bready
      arvalid := drives.arvalid
      rready := drives.rready }

/-- What a period without a transfer does not change. -/
structure SameUser
    (master : SimbusAxi4 User)
    (slave : SimbusAxi4 Device)
    (master' : SimbusAxi4 User)
    (slave' : SimbusAxi4 Device) : Prop where
  masterWidths : master'.widths = master.widths
  slaveWidths : slave'.widths = slave.widths
  user : slave'.user = slave.user
  calls : slave'.calls = slave.calls

theorem SameUser.refl : SameUser master slave master slave :=
  ⟨rfl, rfl, rfl, rfl⟩

theorem SameUser.trans
    {middle last : SimbusAxi4 User}
    {middle' last' : SimbusAxi4 Device}
    (first : SameUser master slave middle middle')
    (second : SameUser middle middle' last last') :
    SameUser master slave last last' where
  masterWidths := second.masterWidths.trans first.masterWidths
  slaveWidths := second.slaveWidths.trans first.slaveWidths
  user := second.user.trans first.user
  calls := second.calls.trans first.calls

/-- Both are at rest, or the slave has not been reset yet. -/
structure BothIdle
    (server : Widths)
    (dev : SlaveDevice Device)
    (master : SimbusAxi4 User)
    (slave : SimbusAxi4 Device) : Prop where
  compatible : Compatible server master.widths slave.widths
  masterRests : MasterRests master
  running : master.aresetN = .one
  slaveIdle : SlaveIdle dev slave

/-- A period in which nothing is transferred. -/
theorem BothIdle.period
    (idle : BothIdle server dev master slave) :
    ∃ master' slave',
      BothIdle server dev master' slave' ∧
      SameUser master slave master' slave' ∧
      Unmoved slave slave' ∧
      (slaveMeeting server).Ends (axi4NextPosedge.start master) slave
        () master' slave' := by
  have rests := idle.masterRests
  have still := idle.slaveIdle
  have ran : slaveMachine (slave.obey master .one) =
      some (Next.start (slave.obey master .one)) :=
    slaveMachine_rests rests.awvalid rests.wvalid rests.arvalid
      still.awready still.bvalid still.rvalid
  have ends := exchange_edge idle.compatible rests.aclk still.aclk
    idle.running ran
  rw [finish_start] at ends
  have unmoved : Unmoved slave ((slave.obey master .one).recordEdge
      (slave.obey master .one).toAxi4Signals []) :=
    { aclk := nofun
      device := rfl
      awready := rfl
      wready := rfl
      bvalid := rfl
      bid := rfl
      arready := rfl
      rvalid := rfl
      latch := rfl
      widths := rfl
      user := rfl
      calls := List.append_nil slave.calls }
  have widths := hear_widths idle.compatible .one
  have running : (master.hear server slave .one).aresetN = .one := by
    rw [hear_eq idle.compatible]
    exact idle.running
  have same : SameUser master slave (master.hear server slave .one)
      ((slave.obey master .one).recordEdge
        (slave.obey master .one).toAxi4Signals []) :=
    { masterWidths := widths
      slaveWidths := unmoved.widths
      user := unmoved.user
      calls := unmoved.calls }
  refine ⟨_, _, ?_, same, unmoved, ends⟩
  exact
    { compatible := by
        rw [widths]
        exact idle.compatible
      masterRests := rests.hear idle.compatible
      running := running
      slaveIdle := unmoved.idle still }

end Periods

/-! ## Waiting -/

section Waiting

variable {Value : Type}
variable {server : Widths}
variable {mayHang : Prop}
variable {master : SimbusAxi4 User}
variable {slave : SimbusAxi4 Device}

/-- Before an edge the master waits. -/
theorem axi4NextPosedge_waits
    (next : Unit → SimbusAxi4 User →
      Behavior (SimbusAxi4 User) MasterReply Value)
    (high : master.aclk ≠ .zero) :
    ((axi4NextPosedge.start master).bind next).run [] = .waiting master := by
  rw [axi4NextPosedge, Program.start_bind, awaitLevel_waits high]
  rfl

theorem start_waitTurn
    (master : SimbusAxi4 User)
    (irqMask : Option (BitVec 32))
    (clks : Nat) :
    (waitTurn irqMask (clks + 1)).start master =
      (axi4NextPosedge.start master).bind fun _ bus =>
        if testInterrupts irqMask bus ≠ 0 then
          .finish (.inr (1, some (testInterrupts irqMask bus))) bus
        else
          .finish (.inl clks) bus := by
  rw [waitTurn, Program.start_bind]
  congr 1
  funext _ bus
  simp only [Program.start_bind, Program.start_getState,
    Behavior.finish_bind, Program.start_ite, Program.start_pure]

/-- Without a clock to wait for there is no exchange. -/
theorem start_waitLoop_zero
    (irqMask : Option (BitVec 32)) :
    (Program.loop (waitTurn irqMask) 0).start master =
      .finish (0, irqMask.map fun _ => 0) master := by
  have turn : (waitTurn irqMask 0 :
        MasterCall User (Nat ⊕ (Int × Option (BitVec 32)))).start master =
      .finish (.inr (0, irqMask.map fun _ => 0)) master := by
    rw [waitTurn, Program.start_pure]
  rw [Program.start_loop (by simp [turn]), turn]
  rfl

/-- A wait of some clocks is one period and a shorter wait. -/
theorem settles_waitTurn
    {holds : SimbusAxi4 User → SimbusAxi4 Device → Prop}
    {irqMask : Option (BitVec 32)}
    {clks : Nat}
    {master' : SimbusAxi4 User}
    {slave' : SimbusAxi4 Device}
    (high : master.aclk ≠ .zero)
    (ends : (slaveMeeting server).Ends (axi4NextPosedge.start master) slave
      () master' slave')
    (after : holds master' slave')
    (later : (slaveMeeting server).Settles mayHang
      ((Program.loop (waitTurn irqMask) clks).start master') slave'
      fun _ => holds) :
    (slaveMeeting server).Settles mayHang
      ((Program.loop (waitTurn irqMask) (clks + 1)).start master) slave
      fun _ => holds := by
  have turn := start_waitTurn master irqMask clks
  have exchanges : ∀ next final rest,
      ((waitTurn irqMask (clks + 1)).start master).run [] ≠
        .finished (.inl next) final rest := by
    intro next final rest
    rw [turn, axi4NextPosedge_waits _ high]
    nofun
  rw [Program.start_loop exchanges, turn, Behavior.bind_assoc]
  apply ends.settles
  split
  · exact .finish after
  · exact later

/-- A wait keeps what every period keeps. -/
theorem settles_waitLoop
    (holds : SimbusAxi4 User → SimbusAxi4 Device → Prop)
    (high : ∀ master slave, holds master slave → master.aclk ≠ .zero)
    (period : ∀ master slave, holds master slave →
      ∃ master' slave', holds master' slave' ∧
        (slaveMeeting server).Ends (axi4NextPosedge.start master) slave
          () master' slave')
    (irqMask : Option (BitVec 32))
    (clks : Nat)
    (before : holds master slave) :
    (slaveMeeting server).Settles mayHang
      ((Program.loop (waitTurn irqMask) clks).start master) slave
      fun _ => holds := by
  induction clks generalizing master slave with
  | zero =>
      rw [start_waitLoop_zero]
      exact .finish before
  | succ clks inductionHypothesis =>
      obtain ⟨master', slave', after, ends⟩ := period master slave before
      exact settles_waitTurn (high _ _ before) ends after
        (inductionHypothesis after)

theorem settles_wait
    (holds : SimbusAxi4 User → SimbusAxi4 Device → Prop)
    (high : ∀ master slave, holds master slave → master.aclk ≠ .zero)
    (period : ∀ master slave, holds master slave →
      ∃ master' slave', holds master' slave' ∧
        (slaveMeeting server).Ends (axi4NextPosedge.start master) slave
          () master' slave')
    (irqMask : Option (BitVec 32))
    (clks : Nat)
    (before : holds master slave) :
    (slaveMeeting server).Settles mayHang
      ((simbusAxi4Wait clks irqMask).start master) slave
      fun _ => holds := by
  simp only [simbusAxi4Wait, Program.start_bind, Program.start_getState,
    Behavior.finish_bind, Program.start_ite, Program.start_pure]
  split
  · exact .finish before
  · exact settles_waitLoop holds high period irqMask clks before

/-! ## Reset -/

/-- Both are at rest. -/
structure BothRest
    (server : Widths)
    (dev : SlaveDevice Device)
    (master : SimbusAxi4 User)
    (slave : SimbusAxi4 Device) : Prop where
  compatible : Compatible server master.widths slave.widths
  masterRests : MasterRests master
  running : master.aresetN = .one
  slaveRests : SlaveRests dev slave

theorem BothRest.idle
    {dev : SlaveDevice Device}
    (rests : BothRest server dev master slave) :
    BothIdle server dev master slave where
  compatible := rests.compatible
  masterRests := rests.masterRests
  running := rests.running
  slaveIdle := rests.slaveRests.idle

theorem BothRest.period
    {dev : SlaveDevice Device}
    (rests : BothRest server dev master slave) :
    ∃ master' slave',
      BothRest server dev master' slave' ∧
      SameUser master slave master' slave' ∧
      (slaveMeeting server).Ends (axi4NextPosedge.start master) slave
        () master' slave' := by
  obtain ⟨master', slave', idle, same, unmoved, ends⟩ := rests.idle.period
  refine ⟨master', slave', ?_, same, ends⟩
  exact
    { compatible := idle.compatible
      masterRests := idle.masterRests
      running := idle.running
      slaveRests := unmoved.drives rests.slaveRests }

/-- The slave is in reset. -/
structure InReset
    (server : Widths)
    (dev : SlaveDevice Device)
    (master : SimbusAxi4 User)
    (slave : SimbusAxi4 Device) : Prop where
  compatible : Compatible server master.widths slave.widths
  masterRests : MasterRests master
  resets : master.aresetN = .zero
  slaveRests : SlaveRests dev slave

variable {dev : SlaveDevice Device}

/-- A period with ARESETn low. -/
theorem reset_period
    (compatible : Compatible server master.widths slave.widths)
    (rests : MasterRests master)
    (resets : master.aresetN = .zero)
    (idle : SlaveIdle dev slave) :
    ∃ master' slave',
      InReset server dev master' slave' ∧
      SameUser master slave master' slave' ∧
      (slaveMeeting server).Ends (axi4NextPosedge.start master) slave
        () master' slave' := by
  have ends := exchange_reset compatible rests.aclk idle.aclk resets
  have compatible' : Compatible server master.widths
      (reset (slave.obey master .one)).widths :=
    compatible
  have widths := hear_widths compatible' .one
  have low : (master.hear server (reset (slave.obey master .one))
      .one).aresetN = .zero := by
    rw [hear_eq compatible']
    exact resets
  have slaveRests : SlaveRests dev (reset (slave.obey master .one)) :=
    { aclk := nofun
      device := idle.device
      awready := rfl
      wready := rfl
      bvalid := rfl
      arready := rfl
      rvalid := rfl
      bid := nofun
      wprot := idle.wprot
      rprot := idle.rprot }
  have same : SameUser master slave
      (master.hear server (reset (slave.obey master .one)) .one)
      (reset (slave.obey master .one)) :=
    { masterWidths := widths
      slaveWidths := rfl
      user := rfl
      calls := rfl }
  refine ⟨_, _, ?_, same, ends⟩
  exact
    { compatible := by
        rw [widths]
        exact compatible
      masterRests := rests.hear compatible'
      resets := low
      slaveRests := slaveRests }

/-- Without a mask there are no interrupts. -/
theorem start_simbusAxi4Wait
    (clks : Nat) :
    (simbusAxi4Wait clks none).start master =
      (Program.loop (waitTurn none) clks).start master := by
  simp only [simbusAxi4Wait, Program.start_bind, Program.start_getState,
    Behavior.finish_bind, testInterrupts, ne_eq, not_true_eq_false,
    ↓reduceIte]

theorem start_simbusAxi4Reset
    (width settle : Nat)
    (lasts : 0 < width ∧ 0 < settle) :
    (simbusAxi4Reset width settle).start master =
      ((simbusAxi4Wait width none).start
        { master with aresetN := .zero }).bind fun _ bus =>
          ((simbusAxi4Wait settle none).start
            { bus with aresetN := .one }).bind fun _ => .finish () := by
  simp only [simbusAxi4Reset, driveReset, Program.start_bind,
    Program.start_assert, lasts.1, lasts.2, decide_true, ↓reduceIte,
    Behavior.finish_bind, Program.start_modifyState]
  rfl

theorem start_simbusAxi4Reset_fails
    (width settle : Nat)
    (short : ¬ (0 < width ∧ 0 < settle)) :
    (simbusAxi4Reset width settle).start master = .fail master := by
  by_cases wide : 0 < width
  · have unsettled : ¬ 0 < settle := fun some => short ⟨wide, some⟩
    simp [simbusAxi4Reset, wide, unsettled]
  · simp [simbusAxi4Reset, wide]

/-- A wait of some clocks resets the slave. -/
theorem settles_resetWait
    {width : Nat}
    (compatible : Compatible server master.widths slave.widths)
    (rests : MasterRests master)
    (resets : master.aresetN = .zero)
    (idle : SlaveIdle dev slave)
    (lasts : 0 < width) :
    (slaveMeeting server).Settles mayHang
      ((simbusAxi4Wait width none).start master) slave
      fun _ master' slave' =>
        InReset server dev master' slave' ∧
        SameUser master slave master' slave' := by
  obtain ⟨clks, rfl⟩ : ∃ clks, width = clks + 1 := ⟨width - 1, by omega⟩
  obtain ⟨master', slave', after, same, ends⟩ :=
    reset_period compatible rests resets idle
  rw [start_simbusAxi4Wait]
  refine settles_waitTurn rests.aclk ends ⟨after, same⟩ ?_
  refine settles_waitLoop
    (fun first second => InReset server dev first second ∧
      SameUser master slave first second) ?_ ?_ none clks ⟨after, same⟩
  · exact fun _ _ holds => holds.1.masterRests.aclk
  · rintro first second ⟨inReset, sameSo⟩
    obtain ⟨master'', slave'', later, sameLater, endsLater⟩ :=
      reset_period inReset.compatible inReset.masterRests inReset.resets
        inReset.slaveRests.idle
    exact ⟨master'', slave'', ⟨later, sameSo.trans sameLater⟩, endsLater⟩

/-- A wait keeps both at rest. -/
theorem BothRest.settles_wait
    (rests : BothRest server dev master slave)
    (clks : Nat)
    (irqMask : Option (BitVec 32)) :
    (slaveMeeting server).Settles mayHang
      ((simbusAxi4Wait clks irqMask).start master) slave
      fun _ master' slave' =>
        BothRest server dev master' slave' ∧
        SameUser master slave master' slave' := by
  refine Axi4.settles_wait
    (fun first second => BothRest server dev first second ∧
      SameUser master slave first second) ?_ ?_ irqMask clks ⟨rests, .refl⟩
  · exact fun _ _ holds => holds.1.masterRests.aclk
  · rintro first second ⟨rests, same⟩
    obtain ⟨master', slave', later, sameLater, ends⟩ := rests.period
    exact ⟨master', slave', ⟨later, same.trans sameLater⟩, ends⟩

/-- A wait before the reset. -/
theorem BothIdle.settles_wait
    (idle : BothIdle server dev master slave)
    (clks : Nat)
    (irqMask : Option (BitVec 32)) :
    (slaveMeeting server).Settles mayHang
      ((simbusAxi4Wait clks irqMask).start master) slave
      fun _ master' slave' =>
        BothIdle server dev master' slave' ∧
        SameUser master slave master' slave' := by
  refine Axi4.settles_wait
    (fun first second => BothIdle server dev first second ∧
      SameUser master slave first second) ?_ ?_ irqMask clks ⟨idle, .refl⟩
  · exact fun _ _ holds => holds.1.masterRests.aclk
  · rintro first second ⟨idle, same⟩
    obtain ⟨master', slave', later, sameLater, _, ends⟩ := idle.period
    exact ⟨master', slave', ⟨later, same.trans sameLater⟩, ends⟩

/-- After a reset both are at rest. -/
theorem settles_reset
    {width settle : Nat}
    (idle : BothIdle server dev master slave)
    (lasts : ¬ mayHang → 0 < width ∧ 0 < settle) :
    (slaveMeeting server).Settles mayHang
      ((simbusAxi4Reset width settle).start master) slave
      fun _ master' slave' =>
        BothRest server dev master' slave' ∧
        SameUser master slave master' slave' := by
  by_cases long : 0 < width ∧ 0 < settle
  · rw [start_simbusAxi4Reset width settle long]
    have rests := idle.masterRests
    have first : (slaveMeeting server).Settles mayHang
        ((simbusAxi4Wait width none).start
          { master with aresetN := .zero }) slave
        fun _ master' slave' =>
          InReset server dev master' slave' ∧
          SameUser { master with aresetN := .zero } slave master' slave' :=
      settles_resetWait idle.compatible { rests with } rfl idle.slaveIdle
        long.1
    apply first.bind
    rintro _ middle middle' ⟨inReset, same⟩
    have ready : BothRest server dev { middle with aresetN := .one }
        middle' :=
      { compatible := inReset.compatible
        masterRests := { inReset.masterRests with }
        running := rfl
        slaveRests := inReset.slaveRests }
    apply (ready.settles_wait settle none).bind
    rintro _ last last' ⟨rests, sameLast⟩
    refine .finish ⟨rests, ?_⟩
    exact
      { masterWidths := sameLast.masterWidths.trans same.masterWidths
        slaveWidths := sameLast.slaveWidths.trans same.slaveWidths
        user := sameLast.user.trans same.user
        calls := sameLast.calls.trans same.calls }
  · have may : mayHang := Classical.byContradiction fun no => long (lasts no)
    rw [start_simbusAxi4Reset_fails width settle long]
    exact .fail may

end Waiting

end

end Simbus.Axi4
