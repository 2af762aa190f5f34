import Simbus.Axi4.Transfer

/-!
# A write from rest to rest

What each edge of an access leaves of the slave; a write takes the address in
one period, the data in the next and the response in the third.
-/

namespace Simbus.Axi4

open FourValued Clocked

section

variable {User Device : Type}

/-! ## Edges -/

/-- What an edge leaves, and the callbacks made there. -/
def edgeOf
    (bus : SimbusAxi4 Device) : Option (SimbusAxi4 Device × List SlaveCall) :=
  (slaveMachine bus).map fun next => (next.finish, next.calls)

/-- The slave after it has taken a write address. -/
def takeWriteAddress (bus : SimbusAxi4 Device) : SimbusAxi4 Device :=
  { bus with
    slave :=
      { bus.slave with
        waddr := bus.writeAddr bus.widths
        wsize := bus.writeSize
        wlen := bitsToUint 8 8 bus.aw.len }
    awready := .zero
    wready := .one }

/-- The slave after it has taken the data of a write. -/
def takeData
    (bus : SimbusAxi4 Device)
    (served : Served Device) : SimbusAxi4 Device :=
  { bus with
    user := served.user
    wready := .zero
    bvalid := .one
    bresp := Next.putResp served.resp.lowBit served.resp.highBit bus.bresp }

/-- The slave after it has given the response to a write. -/
def giveResponse (bus : SimbusAxi4 Device) : SimbusAxi4 Device :=
  { bus with
    awready := .one
    bvalid := .zero
    bresp := Next.putResp .x .x bus.bresp }

/-- The slave after it has served a read. -/
def takeRead
    (after : SimbusAxi4 Device)
    (served : Served Device) : SimbusAxi4 Device :=
  { after with
    user := served.user
    arready := .zero
    rvalid := .one
    rresp := Next.putResp served.resp.lowBit served.resp.highBit after.rresp }

/-- The slave after it has given the data of a read. -/
def giveData (bus : SimbusAxi4 Device) : SimbusAxi4 Device :=
  { bus with rvalid := .zero, arready := .one }

theorem putResp_self (bits : Bits) :
    Next.putResp (bits 0) (bits 1) bits = bits := by
  funext idx
  match idx with
  | 0 => rfl
  | 1 => rfl
  | _ + 2 => rfl

section Edges

variable {bus : SimbusAxi4 Device}

theorem edgeOf_takesAddress
    (awvalid : bus.aw.valid = .one)
    (arvalid : bus.ar.valid = .zero)
    (awready : bus.awready = .one)
    (wready : bus.wready = .zero)
    (bvalid : bus.bvalid ≠ .one)
    (rvalid : bus.rvalid ≠ .one) :
    edgeOf bus = some (takeWriteAddress bus, []) := by
  rw [edgeOf, slaveMachine_takesAddress awvalid arvalid awready wready
    bvalid rvalid]
  simp only [Option.map_some, Next.finish, Next.start, putResp_self]
  rfl

theorem edgeOf_takesData
    (bus : SimbusAxi4 Device)
    (awvalid : bus.aw.valid = .zero)
    (wvalid : bus.wvalid = .one)
    (arvalid : bus.ar.valid = .zero)
    (wready : bus.wready = .one)
    (bvalid : bus.bvalid ≠ .one)
    (rvalid : bus.rvalid ≠ .one) :
    edgeOf bus = (writeData bus).map fun served =>
      (takeData bus served, served.calls) := by
  rw [edgeOf, slaveMachine_takesData bus awvalid wvalid arvalid wready bvalid
    rvalid, Option.map_map]
  congr 1
  funext served
  simp only [Function.comp_apply, Next.finish, Next.start, putResp_self]
  rfl

theorem edgeOf_givesResponse
    (awvalid : bus.aw.valid = .zero)
    (wvalid : bus.wvalid = .zero)
    (arvalid : bus.ar.valid = .zero)
    (bvalid : bus.bvalid = .one)
    (bready : bus.bready = .one)
    (rvalid : bus.rvalid ≠ .one) :
    edgeOf bus = some (giveResponse bus, []) := by
  rw [edgeOf, slaveMachine_givesResponse awvalid wvalid arvalid bvalid
    bready rvalid]
  simp only [Option.map_some, Next.finish, Next.start, putResp_self]
  rfl

theorem edgeOf_takesRead
    (bus : SimbusAxi4 Device)
    (awvalid : bus.aw.valid = .zero)
    (wvalid : bus.wvalid = .zero)
    (arvalid : bus.ar.valid = .one)
    (awready : bus.awready = .one)
    (bvalid : bus.bvalid ≠ .one)
    (arready : bus.arready = .one)
    (rvalid : bus.rvalid ≠ .one) :
    edgeOf bus = (readData (takeReadAddress bus)).map
      fun (served, after) => (takeRead after served, served.calls) := by
  rw [edgeOf, slaveMachine_takesRead bus awvalid wvalid arvalid awready bvalid
    arready rvalid, Option.map_map]
  cases did : readData (takeReadAddress bus) with
  | none =>
      rfl
  | some result =>
      obtain ⟨served, after⟩ := result
      have same := readData_keeps did
      generalize after.rdata = rdata, after.rid = rid at same
      subst same
      simp only [Option.map_some, Function.comp_apply, Next.finish,
        Next.start, takeReadAddress, putResp_self]
      rfl

theorem edgeOf_givesData
    (awvalid : bus.aw.valid = .zero)
    (wvalid : bus.wvalid = .zero)
    (arvalid : bus.ar.valid = .zero)
    (awready : bus.awready = .one)
    (bvalid : bus.bvalid ≠ .one)
    (rvalid : bus.rvalid = .one)
    (rready : bus.rready = .one) :
    edgeOf bus = some (giveData bus, []) := by
  rw [edgeOf, slaveMachine_givesData awvalid wvalid arvalid awready bvalid
    rvalid rready]
  simp only [Option.map_some, Next.finish, Next.start, putResp_self]
  rfl

end Edges

/-! ## What the master hears -/

section Hear

variable {server : Widths}
variable {master : SimbusAxi4 User}
variable {slave : SimbusAxi4 Device}

/-- A BID of one bit takes the place of AWREADY. -/
theorem hear_awready
    (compatible : Compatible server master.widths slave.widths)
    (wide : master.widths.widWidth ≠ 1) :
    (master.hear server slave .one).awready = slave.awready := by
  rw [hear_eq compatible]
  simp only [SimbusAxi4.sampledAwready, if_neg wide]
  split <;> rfl

theorem decode_encode_inside
    {width idx : Nat}
    (inside : idx < width)
    (bits old : Bits) :
    decode (encode width bits) old idx = bits idx := by
  rw [decode_encode, if_pos inside]

end Hear

/-! ## Writes -/

section Write

variable {server : Widths}
variable {dev : SlaveDevice Device}
variable {master : SimbusAxi4 User}
variable {slave : SimbusAxi4 Device}

/-- `resp_code` and `response_timer` after an edge. -/
def nextResp
    (locals : Resp × Int)
    (bus : SimbusAxi4 User) : Resp × Int :=
  if bus.bready = .one ∧ bus.bvalid = .one then
    (extractResp bus.bresp, locals.2)
  else if bus.bready = .one then
    if locals.2 - 1 < 0 then
      (.slverr, locals.2 - 1)
    else
      (locals.1, locals.2 - 1)
  else
    locals

/-- The master after an edge of a write. -/
def SimbusAxi4.endWriteEdge (bus : SimbusAxi4 User) : SimbusAxi4 User :=
  let bus := bus.endWriteBeats
  if bus.bready = .one ∧ bus.bvalid = .one then
    { bus with bready := .zero }
  else
    bus

theorem start_waitForRespTurn
    (goesOn : master.aw.valid = .one ∨ master.wvalid = .one ∨
      master.bready = .one)
    (locals : Resp × Int) :
    (waitForRespTurn locals).start master =
      (axi4NextPosedge.start master).bind fun _ bus =>
        .finish (.inl (nextResp locals bus.endWriteBeats))
          bus.endWriteEdge := by
  obtain ⟨respCode, responseTimer⟩ := locals
  simp only [waitForRespTurn, Program.start_bind, Program.start_getState,
    Behavior.finish_bind, goesOn, ↓reduceIte]
  congr 1
  funext _ bus
  simp only [Program.start_bind, Program.start_modifyState,
    Program.start_getState, Behavior.finish_bind, nextResp,
    SimbusAxi4.endWriteEdge]
  split
  · simp only [Program.start_bind, Program.start_modifyState,
      Behavior.finish_bind, Program.start_pure]
  · split
    · split <;> rfl
    · rfl

/-- While there is something to transfer, the loop waits for an edge. -/
theorem start_waitForResp
    (high : master.aclk ≠ .zero)
    (goesOn : master.aw.valid = .one ∨ master.wvalid = .one ∨
      master.bready = .one)
    (locals : Resp × Int) :
    (Program.loop waitForRespTurn locals).start master =
      (axi4NextPosedge.start master).bind fun _ bus =>
        (Program.loop waitForRespTurn
          (nextResp locals bus.endWriteBeats)).start bus.endWriteEdge := by
  have turn := start_waitForRespTurn goesOn locals
  have exchanges : ∀ next final rest,
      ((waitForRespTurn locals).start master).run [] ≠
        .finished (.inl next) final rest := by
    intro next final rest
    rw [turn, axi4NextPosedge_waits _ high]
    nofun
  rw [Program.start_loop exchanges, turn, Behavior.bind_assoc]
  rfl

theorem start_waitForResp_done
    (awvalid : master.aw.valid = .zero)
    (wvalid : master.wvalid = .zero)
    (bready : master.bready = .zero)
    (locals : Resp × Int) :
    (Program.loop waitForRespTurn locals).start master =
      .finish locals.1 master := by
  have turn : (waitForRespTurn locals).start master =
      .finish (.inr locals.1) master := by
    simp [waitForRespTurn, awvalid, wvalid, bready]
  rw [Program.start_loop (by simp [turn]), turn]
  rfl

/-- The address has been accepted. -/
theorem endWriteEdge_address
    (awvalid : master.aw.valid = .one)
    (awready : master.awready = .one)
    (wready : master.wready ≠ .one)
    (bvalid : master.bvalid ≠ .one) :
    master.endWriteEdge = { master with aw := .unused } := by
  simp [SimbusAxi4.endWriteEdge, SimbusAxi4.endWriteBeats, awvalid, awready,
    wready, bvalid]

/-- The data have been accepted. -/
theorem endWriteEdge_data
    (awvalid : master.aw.valid = .zero)
    (wvalid : master.wvalid = .one)
    (wready : master.wready = .one)
    (bvalid : master.bvalid ≠ .one) :
    master.endWriteEdge =
      { master with
        wvalid := .zero
        wdata := fun _ => .x
        wstrb := fun _ => .x } := by
  simp [SimbusAxi4.endWriteEdge, SimbusAxi4.endWriteBeats, awvalid, wvalid,
    wready, bvalid]

/-- The response has come. -/
theorem endWriteEdge_response
    (awvalid : master.aw.valid = .zero)
    (wvalid : master.wvalid = .zero)
    (bready : master.bready = .one)
    (bvalid : master.bvalid = .one) :
    master.endWriteEdge = { master with bready := .zero } := by
  simp [SimbusAxi4.endWriteEdge, SimbusAxi4.endWriteBeats, awvalid, wvalid,
    bready, bvalid]

/-- Only the first two values of a response count. -/
theorem extractResp_congr
    {bits other : Bits}
    (low : bits 0 = other 0)
    (high : bits 1 = other 1) :
    extractResp bits = extractResp other := by
  rw [extractResp, extractResp, low, high]

/-- An edge at which the slave machine runs. -/
theorem ends_edge
    {after : SimbusAxi4 Device}
    {calls : List SlaveCall}
    (compatible : Compatible server master.widths slave.widths)
    (masterHigh : master.aclk ≠ .zero)
    (slaveHigh : slave.aclk ≠ .zero)
    (running : master.aresetN = .one)
    (ran : edgeOf (slave.obey master .one) = some (after, calls)) :
    (slaveMeeting server).Ends (axi4NextPosedge.start master) slave
      () (master.hear server slave .one)
      (after.recordEdge (slave.obey master .one).toAxi4Signals calls) := by
  rw [edgeOf, Option.map_eq_some_iff] at ran
  obtain ⟨next, ran, same⟩ := ran
  cases same
  exact exchange_edge compatible masterHigh slaveHigh running ran

/-- The slave has taken the address that the master drives. -/
structure AddressTaken
    (dev : SlaveDevice Device)
    (master : SimbusAxi4 User)
    (slave slave' : SimbusAxi4 Device) : Prop where
  drives : SlaveDrives dev slave' .zero .one .zero .one .zero
  waddr : slave'.slave.waddr =
    bitsToUint 64 slave.widths.addrWidth
      (decode (encode master.widths.addrWidth master.aw.addr) slave.aw.addr)
  wsize : slave'.slave.wsize =
    bitsToUint 8 3 (decode (encode 3 master.aw.size) slave.aw.size)
  widths : slave'.widths = slave.widths
  user : slave'.user = slave.user
  calls : slave'.calls = slave.calls

/-- The period in which the address of a write is transferred. -/
theorem write_address
    (compatible : Compatible server master.widths slave.widths)
    (wide : master.widths.widWidth ≠ 1)
    (running : master.aresetN = .one)
    (drives : MasterDrives master .one .one .one .zero .zero)
    (rests : SlaveRests dev slave)
    (locals : Resp × Int) :
    ∃ locals' master' slave',
      MasterDrives master' .zero .one .one .zero .zero ∧
      master'.aresetN = .one ∧
      master'.widths = master.widths ∧
      master'.wdata = master.wdata ∧
      AddressTaken dev master slave slave' ∧
      (slaveMeeting server).Onward
        ((Program.loop waitForRespTurn locals).start master) slave
        ((Program.loop waitForRespTurn locals').start master') slave' := by
  have bvalid : slave.bvalid ≠ .one := rests.bvalid ▸ nofun
  have rvalid : slave.rvalid ≠ .one := rests.rvalid ▸ nofun
  have ran : edgeOf (slave.obey master .one) =
      some (takeWriteAddress (slave.obey master .one), []) :=
    edgeOf_takesAddress drives.awvalid drives.arvalid rests.awready
      rests.wready bvalid rvalid
  have ends := ends_edge compatible drives.aclk rests.aclk running ran
  have heard := drives.hear compatible
  have heardWready : (master.hear server slave .one).wready ≠ .one := by
    rw [hear_eq compatible]
    exact rests.wready ▸ nofun
  have heardBvalid : (master.hear server slave .one).bvalid ≠ .one := by
    rw [hear_eq compatible]
    exact bvalid
  have accepted := endWriteEdge_address heard.awvalid
    ((hear_awready compatible wide).trans rests.awready) heardWready
    heardBvalid
  have onward := ends.onward fun _ bus =>
    (Program.loop waitForRespTurn
      (nextResp locals bus.endWriteBeats)).start bus.endWriteEdge
  rw [← start_waitForResp drives.aclk (.inl drives.awvalid), accepted]
    at onward
  refine ⟨_, _, _, ?_, ?_, ?_, ?_, ?_, onward⟩
  · exact { heard with awvalid := rfl }
  · rw [hear_eq compatible]
    exact running
  · exact hear_widths compatible .one
  · rw [hear_eq compatible]
  · exact
      { drives :=
          { aclk := nofun
            device := rests.device
            awready := rfl
            wready := rfl
            bvalid := rests.bvalid
            arready := rests.arready
            rvalid := rests.rvalid
            bid := rests.bid
            wprot := rests.wprot
            rprot := rests.rprot }
        waddr := rfl
        wsize := rfl
        widths := rfl
        user := rfl
        calls := List.append_nil slave.calls }

/-- The slave has taken the data and shows a response. -/
structure DataTaken
    (dev : SlaveDevice Device)
    (served : Served Device)
    (slave slave' : SimbusAxi4 Device) : Prop where
  drives : SlaveDrives dev slave' .zero .zero .one .one .zero
  bresp0 : slave'.bresp 0 = served.resp.lowBit
  bresp1 : slave'.bresp 1 = served.resp.highBit
  widths : slave'.widths = slave.widths
  user : slave'.user = served.user
  calls : slave'.calls = slave.calls ++ served.calls

/-- The period in which the data of a write are transferred. -/
theorem write_data
    {served : Served Device}
    (compatible : Compatible server master.widths slave.widths)
    (running : master.aresetN = .one)
    (drives : MasterDrives master .zero .one .one .zero .zero)
    (shows : SlaveDrives dev slave .zero .one .zero .one .zero)
    (serves : writeData (slave.obey master .one) = some served)
    (locals : Resp × Int) :
    ∃ locals' master' slave',
      MasterDrives master' .zero .zero .one .zero .zero ∧
      master'.aresetN = .one ∧
      master'.widths = master.widths ∧
      DataTaken dev served slave slave' ∧
      (slaveMeeting server).Onward
        ((Program.loop waitForRespTurn locals).start master) slave
        ((Program.loop waitForRespTurn locals').start master') slave' := by
  have bvalid : slave.bvalid ≠ .one := shows.bvalid ▸ nofun
  have rvalid : slave.rvalid ≠ .one := shows.rvalid ▸ nofun
  have ran : edgeOf (slave.obey master .one) =
      some (takeData (slave.obey master .one) served, served.calls) := by
    rw [edgeOf_takesData (slave.obey master .one) drives.awvalid
      drives.wvalid drives.arvalid shows.wready bvalid rvalid, serves, Option.map_some]
  have ends := ends_edge compatible drives.aclk shows.aclk running ran
  have heard := drives.hear compatible
  have heardWready : (master.hear server slave .one).wready = .one := by
    rw [hear_eq compatible]
    exact shows.wready
  have heardBvalid : (master.hear server slave .one).bvalid ≠ .one := by
    rw [hear_eq compatible]
    exact bvalid
  have accepted := endWriteEdge_data heard.awvalid heard.wvalid heardWready
    heardBvalid
  have onward := ends.onward fun _ bus =>
    (Program.loop waitForRespTurn
      (nextResp locals bus.endWriteBeats)).start bus.endWriteEdge
  rw [← start_waitForResp drives.aclk (.inr (.inl drives.wvalid)), accepted]
    at onward
  refine ⟨_, _, _, ?_, ?_, ?_, ?_, onward⟩
  · exact { heard with wvalid := rfl }
  · rw [hear_eq compatible]
    exact running
  · exact hear_widths compatible .one
  · exact
      { drives :=
          { aclk := nofun
            device := shows.device
            awready := shows.awready
            wready := rfl
            bvalid := rfl
            arready := shows.arready
            rvalid := shows.rvalid
            bid := shows.bid
            wprot := shows.wprot
            rprot := shows.rprot }
        bresp0 := rfl
        bresp1 := rfl
        widths := rfl
        user := rfl
        calls := rfl }

/-- Without an answer to the data the write is never done. -/
theorem write_stuck
    (compatible : Compatible server master.widths slave.widths)
    (running : master.aresetN = .one)
    (drives : MasterDrives master .zero .one .one .zero .zero)
    (shows : SlaveDrives dev slave .zero .one .zero .one .zero)
    (stuck : writeData (slave.obey master .one) = none)
    (locals : Resp × Int) :
    (slaveMeeting server).Halts
      ((Program.loop waitForRespTurn locals).start master) slave := by
  constructor
  intro Result next
  have bvalid : slave.bvalid ≠ .one := shows.bvalid ▸ nofun
  have rvalid : slave.rvalid ≠ .one := shows.rvalid ▸ nofun
  have fails : slaveMachine (slave.obey master .one) = none := by
    rw [slaveMachine_takesData (slave.obey master .one) drives.awvalid
      drives.wvalid drives.arvalid shows.wready bvalid rvalid, stuck, Option.map_none]
  have heard := drives.hear compatible
  have heardWready : (master.hear server slave .one).wready = .one := by
    rw [hear_eq compatible]
    exact shows.wready
  have heardBvalid : (master.hear server slave .one).bvalid ≠ .one := by
    rw [hear_eq compatible]
    exact bvalid
  have accepted := endWriteEdge_data heard.awvalid heard.wvalid heardWready
    heardBvalid
  rw [start_waitForResp drives.aclk (.inr (.inl drives.wvalid)),
    Behavior.bind_assoc]
  apply (exchange_stuck compatible drives.aclk shows.aclk running
    fails).hangs
  have drives' : MasterDrives (master.hear server slave .one).endWriteEdge
      .zero .zero .one .zero .zero := by
    rw [accepted]
    exact { heard with wvalid := rfl }
  rw [start_waitForResp drives'.aclk (.inr (.inr drives'.bready)),
    Behavior.bind_assoc]
  exact Pair.Stuck.hangs (.inr fun _ => nofun)
    (Behavior.ne_finish (axi4NextPosedge_waits _ drives'.aclk))

/-- The period in which the response to a write is transferred. -/
theorem write_response
    (compatible : Compatible server master.widths slave.widths)
    (running : master.aresetN = .one)
    (drives : MasterDrives master .zero .zero .one .zero .zero)
    (shows : SlaveDrives dev slave .zero .zero .one .one .zero)
    (locals : Resp × Int) :
    ∃ master' slave',
      BothRest server dev master' slave' ∧
      SameUser master slave master' slave' ∧
      (slaveMeeting server).Onward
        ((Program.loop waitForRespTurn locals).start master) slave
        (.finish (extractResp slave.bresp) master') slave' := by
  have rvalid : slave.rvalid ≠ .one := shows.rvalid ▸ nofun
  have ran : edgeOf (slave.obey master .one) =
      some (giveResponse (slave.obey master .one), []) :=
    edgeOf_givesResponse drives.awvalid drives.wvalid drives.arvalid
      shows.bvalid drives.bready rvalid
  have ends := ends_edge compatible drives.aclk shows.aclk running ran
  have heard := drives.hear compatible
  have heardBvalid : (master.hear server slave .one).bvalid = .one := by
    rw [hear_eq compatible]
    exact shows.bvalid
  have ended := endWriteEdge_response heard.awvalid heard.wvalid heard.bready
    heardBvalid
  have code : nextResp locals (master.hear server slave .one).endWriteBeats =
      (extractResp slave.bresp, locals.2) := by
    have same : extractResp (master.hear server slave .one).bresp =
        extractResp slave.bresp := by
      have low : 0 < 2 := by decide
      have high : 1 < 2 := by decide
      rw [hear_eq compatible]
      exact extractResp_congr
        (decode_encode_inside low slave.bresp master.bresp)
        (decode_encode_inside high slave.bresp master.bresp)
    simp [nextResp, SimbusAxi4.endWriteBeats, heard.awvalid, heard.wvalid,
      heard.bready, heardBvalid, same]
  have onward := ends.onward fun _ bus =>
    (Program.loop waitForRespTurn
      (nextResp locals bus.endWriteBeats)).start bus.endWriteEdge
  have rests : MasterRests (master.hear server slave .one).endWriteEdge := by
    rw [ended]
    exact { heard with bready := rfl }
  rw [← start_waitForResp drives.aclk (.inr (.inr drives.bready)), code,
    start_waitForResp_done rests.awvalid rests.wvalid rests.bready, ended]
    at onward
  have widths := hear_widths compatible .one
  refine ⟨_, _, ?_, ?_, onward⟩
  · exact
      { compatible := by
          rw [widths]
          exact compatible
        masterRests := { heard with bready := rfl }
        running := by
          rw [hear_eq compatible]
          exact running
        slaveRests :=
          { aclk := nofun
            device := shows.device
            awready := rfl
            wready := shows.wready
            bvalid := rfl
            arready := shows.arready
            rvalid := shows.rvalid
            bid := shows.bid
            wprot := shows.wprot
            rprot := shows.rprot } }
  · exact
      { masterWidths := widths
        slaveWidths := rfl
        user := rfl
        calls := List.append_nil slave.calls }

/-- What the slave finds when the data of a write come. -/
structure WriteBeat
    (dev : SlaveDevice Device)
    (master : SimbusAxi4 User)
    (slave beat : SimbusAxi4 Device) : Prop where
  device : beat.device = some dev
  widths : beat.widths = slave.widths
  user : beat.user = slave.user
  waddr : beat.slave.waddr =
    bitsToUint 64 slave.widths.addrWidth
      (decode (encode master.widths.addrWidth master.aw.addr) slave.aw.addr)
  wsize : beat.slave.wsize =
    bitsToUint 8 3 (decode (encode 3 master.aw.size) slave.aw.size)
  wprot : beat.slave.wprot = 0
  wdata : ∀ idx, idx < master.widths.dataWidth →
    beat.wdata idx = master.wdata idx

/-- What has come of an access that the slave has served. -/
structure AfterAccess
    (server : Widths)
    (dev : SlaveDevice Device)
    (master : SimbusAxi4 User)
    (slave : SimbusAxi4 Device)
    (served : Served Device)
    (master' : SimbusAxi4 User)
    (slave' : SimbusAxi4 Device) : Prop where
  rests : BothRest server dev master' slave'
  masterWidths : master'.widths = master.widths
  slaveWidths : slave'.widths = slave.widths
  user : slave'.user = served.user
  calls : slave'.calls = slave.calls ++ served.calls

/-- The response code that a master sees. -/
def Resp.seen : Resp → Resp
  | .okay | .slverr => .okay
  | .exokay | .decerr => .exokay

theorem extractResp_seen
    {bits : Bits}
    {resp : Resp}
    (low : bits 0 = resp.lowBit)
    (high : bits 1 = resp.highBit) :
    extractResp bits = resp.seen := by
  rw [extractResp, low, high]
  cases resp <;> rfl

/-- A write from rest to rest, if the slave has an answer to its data. -/
theorem settles_waitForResp
    (mayHang : Prop)
    (compatible : Compatible server master.widths slave.widths)
    (wide : master.widths.widWidth ≠ 1)
    (running : master.aresetN = .one)
    (drives : MasterDrives master .one .one .one .zero .zero)
    (rests : SlaveRests dev slave) :
    ∃ beat, WriteBeat dev master slave beat ∧
      ((¬ mayHang → writeData beat ≠ none) →
        (slaveMeeting server).Settles mayHang (waitForResp.start master) slave
          fun resp master' slave' =>
            ∃ served, writeData beat = some served ∧
              resp = served.resp.seen ∧
              AfterAccess server dev master slave served master' slave') := by
  obtain ⟨locals, master₁, slave₁, drives₁, running₁, widths₁, wdata₁,
    taken, toData⟩ :=
    write_address compatible wide running drives rests
      (.okay, axi4RespTimelimit)
  have compatible₁ : Compatible server master₁.widths slave₁.widths := by
    rw [widths₁, taken.widths]
    exact compatible
  refine ⟨slave₁.obey master₁ .one, ?_, fun answers => ?_⟩
  · exact
      { device := taken.drives.device
        widths := taken.widths
        user := taken.user
        waddr := taken.waddr
        wsize := taken.wsize
        wprot := taken.drives.wprot
        wdata := fun idx inside => by
          have inside₁ : idx < master₁.widths.dataWidth := by
            rw [widths₁]
            exact inside
          rw [← wdata₁]
          exact decode_encode_inside inside₁ _ _ }
  · cases serves : writeData (slave₁.obey master₁ .one) with
    | none =>
        have may : mayHang :=
          Classical.byContradiction fun no => answers no serves
        exact toData.settles (.inr ⟨may,
          write_stuck compatible₁ running₁ drives₁ taken.drives serves
            locals⟩)
    | some served =>
        obtain ⟨locals₂, master₂, slave₂, drives₂, running₂, widths₂,
          shows, toResponse⟩ :=
          write_data compatible₁ running₁ drives₁ taken.drives serves locals
        have compatible₂ : Compatible server master₂.widths slave₂.widths := by
          rw [widths₂, shows.widths]
          exact compatible₁
        obtain ⟨master₃, slave₃, rests₃, same, toRest⟩ :=
          write_response compatible₂ running₂ drives₂ shows.drives locals₂
        apply toData.settles
        apply toResponse.settles
        apply toRest.settles
        refine .finish ⟨served, rfl, ?_, ?_⟩
        · exact extractResp_seen shows.bresp0 shows.bresp1
        · exact
            { rests := rests₃
              masterWidths := same.masterWidths.trans (widths₂.trans widths₁)
              slaveWidths :=
                same.slaveWidths.trans (shows.widths.trans taken.widths)
              user := same.user.trans shows.user
              calls := by rw [same.calls, shows.calls, taken.calls] }

end Write

end

end Simbus.Axi4
