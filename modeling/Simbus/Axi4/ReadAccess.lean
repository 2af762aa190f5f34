import Simbus.Axi4.WriteAccess

/-!
# A read from rest to rest

A read takes the address in one period and the data in the next.
-/

namespace Simbus.Axi4

open FourValued Clocked

section

variable {User Device : Type}

section Read

variable {server : Widths}
variable {dev : SlaveDevice Device}
variable {master : SimbusAxi4 User}
variable {slave : SimbusAxi4 Device}
variable {width : Nat}

/-- `resp_code` and the data after an edge. -/
def nextRead
    (width pref : Nat)
    (locals : Resp × BitVec width)
    (bus : SimbusAxi4 User) : Resp × BitVec width :=
  if bus.rready = .one ∧ bus.rvalid = .one then
    (extractResp bus.rresp,
      takeWord width fun idx => bus.fromRdata (pref * 8 + idx))
  else
    locals

/-- The master after an edge of a read. -/
def SimbusAxi4.endReadEdge (bus : SimbusAxi4 User) : SimbusAxi4 User :=
  let bus := bus.raddrCheck
  if bus.rready = .one ∧ bus.rvalid = .one then
    { bus with rready := .zero }
  else
    bus

theorem start_readWordTurn
    (goesOn : master.ar.valid = .one ∨ master.rready = .one)
    (pref : Nat)
    (locals : Resp × BitVec width) :
    (readWordTurn width pref locals).start master =
      (axi4NextPosedge.start master).bind fun _ bus =>
        .finish (.inl (nextRead width pref locals bus.raddrCheck))
          bus.endReadEdge := by
  obtain ⟨respCode, data⟩ := locals
  simp only [readWordTurn, Program.start_bind, Program.start_getState,
    Behavior.finish_bind, goesOn, ↓reduceIte]
  congr 1
  funext _ bus
  simp only [Program.start_bind, Program.start_modifyState,
    Program.start_getState, Behavior.finish_bind, nextRead,
    SimbusAxi4.endReadEdge]
  split
  · simp only [Program.start_bind, Program.start_modifyState,
      Behavior.finish_bind, Program.start_pure]
  · rfl

theorem start_readLoop
    (high : master.aclk ≠ .zero)
    (goesOn : master.ar.valid = .one ∨ master.rready = .one)
    (pref : Nat)
    (locals : Resp × BitVec width) :
    (Program.loop (readWordTurn width pref) locals).start master =
      (axi4NextPosedge.start master).bind fun _ bus =>
        (Program.loop (readWordTurn width pref)
          (nextRead width pref locals bus.raddrCheck)).start
            bus.endReadEdge := by
  have turn := start_readWordTurn goesOn pref locals
  have exchanges : ∀ next final rest,
      ((readWordTurn width pref locals).start master).run [] ≠
        .finished (.inl next) final rest := by
    intro next final rest
    rw [turn, axi4NextPosedge_waits _ high]
    nofun
  rw [Program.start_loop exchanges, turn, Behavior.bind_assoc]
  rfl

theorem start_readLoop_done
    (arvalid : master.ar.valid = .zero)
    (rready : master.rready = .zero)
    (pref : Nat)
    (locals : Resp × BitVec width) :
    (Program.loop (readWordTurn width pref) locals).start master =
      .finish locals master := by
  have turn : (readWordTurn width pref locals).start master =
      .finish (.inr locals) master := by
    simp [readWordTurn, arvalid, rready]
  rw [Program.start_loop (by simp [turn]), turn]
  rfl

/-- The address has been accepted. -/
theorem endReadEdge_address
    (arvalid : master.ar.valid = .one)
    (arready : master.arready = .one)
    (rvalid : master.rvalid ≠ .one) :
    master.endReadEdge = { master with ar := .unused } := by
  simp [SimbusAxi4.endReadEdge, SimbusAxi4.raddrCheck, arvalid, arready,
    rvalid]

/-- The data have come. -/
theorem endReadEdge_data
    (arvalid : master.ar.valid = .zero)
    (rready : master.rready = .one)
    (rvalid : master.rvalid = .one) :
    master.endReadEdge = { master with rready := .zero } := by
  simp [SimbusAxi4.endReadEdge, SimbusAxi4.raddrCheck, arvalid, rready,
    rvalid]

/-- The slave has served a read and shows the data. -/
structure ReadServed
    (dev : SlaveDevice Device)
    (served : Served Device)
    (rdata : Bits)
    (slave slave' : SimbusAxi4 Device) : Prop where
  drives : SlaveDrives dev slave' .one .zero .zero .zero .one
  rresp0 : slave'.rresp 0 = served.resp.lowBit
  rresp1 : slave'.rresp 1 = served.resp.highBit
  rdata : slave'.rdata = rdata
  widths : slave'.widths = slave.widths
  user : slave'.user = served.user
  calls : slave'.calls = slave.calls ++ served.calls

/-- The period in which the address of a read is transferred. -/
theorem read_address
    {served : Served Device}
    {after : SimbusAxi4 Device}
    (compatible : Compatible server master.widths slave.widths)
    (running : master.aresetN = .one)
    (drives : MasterDrives master .zero .zero .zero .one .one)
    (rests : SlaveRests dev slave)
    (serves : readData (takeReadAddress (slave.obey master .one)) =
      some (served, after))
    (pref : Nat)
    (locals : Resp × BitVec width) :
    ∃ locals' master' slave',
      MasterDrives master' .zero .zero .zero .zero .one ∧
      master'.aresetN = .one ∧
      master'.widths = master.widths ∧
      ReadServed dev served after.rdata slave slave' ∧
      (slaveMeeting server).Onward
        ((Program.loop (readWordTurn width pref) locals).start master) slave
        ((Program.loop (readWordTurn width pref) locals').start master')
        slave' := by
  have bvalid : slave.bvalid ≠ .one := rests.bvalid ▸ nofun
  have rvalid : slave.rvalid ≠ .one := rests.rvalid ▸ nofun
  have ran : edgeOf (slave.obey master .one) =
      some (takeRead after served, served.calls) := by
    rw [edgeOf_takesRead (slave.obey master .one) drives.awvalid drives.wvalid drives.arvalid
      rests.awready bvalid rests.arready rvalid, serves, Option.map_some]
  have ends := ends_edge compatible drives.aclk rests.aclk running ran
  have heard := drives.hear compatible
  have heardArready : (master.hear server slave .one).arready = .one := by
    rw [hear_eq compatible]
    exact rests.arready
  have heardRvalid : (master.hear server slave .one).rvalid ≠ .one := by
    rw [hear_eq compatible]
    exact rvalid
  have accepted := endReadEdge_address heard.arvalid heardArready heardRvalid
  have onward := ends.onward fun _ bus =>
    (Program.loop (readWordTurn width pref)
      (nextRead width pref locals bus.raddrCheck)).start bus.endReadEdge
  rw [← start_readLoop drives.aclk (.inl drives.arvalid), accepted]
    at onward
  have same := readData_keeps serves
  refine ⟨_, _, _, ?_, ?_, ?_, ?_, onward⟩
  · exact { heard with arvalid := rfl }
  · rw [hear_eq compatible]
    exact running
  · exact hear_widths compatible .one
  · generalize isRdata : after.rdata = rdata at same ⊢
    generalize after.rid = rid at same
    subst same
    exact
      { drives :=
          { aclk := nofun
            device := rests.device
            awready := rests.awready
            wready := rests.wready
            bvalid := rests.bvalid
            arready := rfl
            rvalid := rfl
            bid := rests.bid
            wprot := rests.wprot
            rprot := rests.rprot }
        rresp0 := rfl
        rresp1 := rfl
        rdata := rfl
        widths := rfl
        user := rfl
        calls := rfl }

/-- Without an answer to its address a read is never done. -/
theorem read_stuck
    (compatible : Compatible server master.widths slave.widths)
    (running : master.aresetN = .one)
    (drives : MasterDrives master .zero .zero .zero .one .one)
    (rests : SlaveRests dev slave)
    (stuck : readData (takeReadAddress (slave.obey master .one)) = none)
    (pref : Nat)
    (locals : Resp × BitVec width) :
    (slaveMeeting server).Halts
      ((Program.loop (readWordTurn width pref) locals).start master)
      slave := by
  constructor
  intro Result next
  have bvalid : slave.bvalid ≠ .one := rests.bvalid ▸ nofun
  have rvalid : slave.rvalid ≠ .one := rests.rvalid ▸ nofun
  have fails : slaveMachine (slave.obey master .one) = none := by
    rw [slaveMachine_takesRead (slave.obey master .one) drives.awvalid drives.wvalid drives.arvalid
      rests.awready bvalid rests.arready rvalid, stuck, Option.map_none]
  have heard := drives.hear compatible
  have heardArready : (master.hear server slave .one).arready = .one := by
    rw [hear_eq compatible]
    exact rests.arready
  have heardRvalid : (master.hear server slave .one).rvalid ≠ .one := by
    rw [hear_eq compatible]
    exact rvalid
  have accepted := endReadEdge_address heard.arvalid heardArready heardRvalid
  rw [start_readLoop drives.aclk (.inl drives.arvalid), Behavior.bind_assoc]
  apply (exchange_stuck compatible drives.aclk rests.aclk running fails).hangs
  have drives' : MasterDrives (master.hear server slave .one).endReadEdge
      .zero .zero .zero .zero .one := by
    rw [accepted]
    exact { heard with arvalid := rfl }
  rw [start_readLoop drives'.aclk (.inr drives'.rready),
    Behavior.bind_assoc]
  exact Pair.Stuck.hangs (.inr fun _ => nofun)
    (Behavior.ne_finish (axi4NextPosedge_waits _ drives'.aclk))

/-- The period in which the data of a read are transferred. -/
theorem read_data
    (compatible : Compatible server master.widths slave.widths)
    (running : master.aresetN = .one)
    (drives : MasterDrives master .zero .zero .zero .zero .one)
    (shows : SlaveDrives dev slave .one .zero .zero .zero .one)
    (pref : Nat)
    (locals : Resp × BitVec width) :
    ∃ master' slave', ∃ bits : Bits,
      BothRest server dev master' slave' ∧
      SameUser master slave master' slave' ∧
      (∀ idx, idx < master.widths.dataWidth → idx < 64 →
        bits idx = slave.rdata idx) ∧
      (slaveMeeting server).Onward
        ((Program.loop (readWordTurn width pref) locals).start master) slave
        (.finish
          (extractResp slave.rresp,
            takeWord width fun idx => bits (pref * 8 + idx))
          master')
        slave' := by
  have bvalid : slave.bvalid ≠ .one := shows.bvalid ▸ nofun
  have ran : edgeOf (slave.obey master .one) =
      some (giveData (slave.obey master .one), []) :=
    edgeOf_givesData drives.awvalid drives.wvalid drives.arvalid
      shows.awready bvalid shows.rvalid drives.rready
  have ends := ends_edge compatible drives.aclk shows.aclk running ran
  have heard := drives.hear compatible
  have heardRvalid : (master.hear server slave .one).rvalid = .one := by
    rw [hear_eq compatible]
    exact shows.rvalid
  have ended := endReadEdge_data heard.arvalid heard.rready heardRvalid
  have locals' : nextRead width pref locals
        (master.hear server slave .one).raddrCheck =
      (extractResp slave.rresp,
        takeWord width fun idx =>
          (master.hear server slave .one).fromRdata (pref * 8 + idx)) := by
    have same : extractResp (master.hear server slave .one).rresp =
        extractResp slave.rresp := by
      have low : 0 < 2 := by decide
      have high : 1 < 2 := by decide
      rw [hear_eq compatible]
      exact extractResp_congr
        (decode_encode_inside low slave.rresp master.rresp)
        (decode_encode_inside high slave.rresp master.rresp)
    simp [nextRead, SimbusAxi4.raddrCheck, heard.arvalid, heard.rready,
      heardRvalid, same]
  have onward := ends.onward fun _ bus =>
    (Program.loop (readWordTurn width pref)
      (nextRead width pref locals bus.raddrCheck)).start bus.endReadEdge
  have rests : MasterRests (master.hear server slave .one).endReadEdge := by
    rw [ended]
    exact { heard with rready := rfl }
  rw [← start_readLoop drives.aclk (.inr drives.rready), locals',
    start_readLoop_done rests.arvalid rests.rready, ended] at onward
  have widths := hear_widths compatible .one
  refine ⟨_, _, _, ?_, ?_, ?_, onward⟩
  · exact
      { compatible := by
          rw [widths]
          exact compatible
        masterRests := { heard with rready := rfl }
        running := by
          rw [hear_eq compatible]
          exact running
        slaveRests :=
          { aclk := nofun
            device := shows.device
            awready := shows.awready
            wready := shows.wready
            bvalid := shows.bvalid
            arready := rfl
            rvalid := rfl
            bid := shows.bid
            wprot := shows.wprot
            rprot := shows.rprot } }
  · exact
      { masterWidths := widths
        slaveWidths := rfl
        user := rfl
        calls := List.append_nil slave.calls }
  · intro idx inside fits
    have insideSlave : idx < slave.widths.dataWidth := by
      rw [compatible.slaveData, ← compatible.data]
      exact inside
    rw [hear_eq compatible, SimbusAxi4.fromRdata, if_pos fits]
    exact decode_encode_inside insideSlave _ _

/-- What the slave finds when the address of a read comes. -/
structure ReadBeat
    (dev : SlaveDevice Device)
    (master : SimbusAxi4 User)
    (slave beat : SimbusAxi4 Device) : Prop where
  device : beat.device = some dev
  widths : beat.widths = slave.widths
  user : beat.user = slave.user
  raddr : beat.slave.raddr =
    bitsToUint 64 slave.widths.addrWidth
      (decode (encode master.widths.addrWidth master.ar.addr) slave.ar.addr)
  rsize : beat.slave.rsize =
    bitsToUint 8 3 (decode (encode 3 master.ar.size) slave.ar.size)
  rprot : beat.slave.rprot = 0

/-- A read from rest to rest, if the slave has an answer to its address. -/
theorem settles_readLoop
    (mayHang : Prop)
    (width : Nat)
    (compatible : Compatible server master.widths slave.widths)
    (running : master.aresetN = .one)
    (drives : MasterDrives master .zero .zero .zero .one .one)
    (rests : SlaveRests dev slave)
    (pref : Nat) :
    ∃ beat, ReadBeat dev master slave beat ∧
      ((¬ mayHang → readData beat ≠ none) →
        (slaveMeeting server).Settles mayHang
          ((Program.loop (readWordTurn width pref) (.okay, 0)).start master)
          slave
          fun result master' slave' =>
            ∃ served after, ∃ bits : Bits,
              readData beat = some (served, after) ∧
              result.1 = served.resp.seen ∧
              (∀ idx, idx < master.widths.dataWidth → idx < 64 →
                bits idx = after.rdata idx) ∧
              result.2 = takeWord width (fun idx => bits (pref * 8 + idx)) ∧
              AfterAccess server dev master slave served master' slave') := by
  refine ⟨takeReadAddress (slave.obey master .one), ?_, fun answers => ?_⟩
  · exact
      { device := rests.device
        widths := rfl
        user := rfl
        raddr := rfl
        rsize := rfl
        rprot := rests.rprot }
  · cases serves : readData (takeReadAddress (slave.obey master .one)) with
    | none =>
        have may : mayHang :=
          Classical.byContradiction fun no => answers no serves
        exact .inr ⟨may,
          read_stuck compatible running drives rests serves pref _⟩
    | some result =>
        obtain ⟨served, after⟩ := result
        obtain ⟨locals₁, master₁, slave₁, drives₁, running₁, widths₁, shows,
          toData⟩ :=
          read_address compatible running drives rests serves pref
            (.okay, (0 : BitVec width))
        have compatible₁ : Compatible server master₁.widths slave₁.widths := by
          rw [widths₁, shows.widths]
          exact compatible
        obtain ⟨master₂, slave₂, bits, rests₂, same, word, toRest⟩ :=
          read_data compatible₁ running₁ drives₁ shows.drives pref locals₁
        apply toData.settles
        apply toRest.settles
        refine .finish ⟨served, after, bits, rfl, ?_, ?_, rfl, ?_⟩
        · exact extractResp_seen shows.rresp0 shows.rresp1
        · intro idx inside fits
          rw [← shows.rdata]
          exact word idx (widths₁ ▸ inside) fits
        · exact
            { rests := rests₂
              masterWidths := same.masterWidths.trans widths₁
              slaveWidths := same.slaveWidths.trans shows.widths
              user := same.user.trans shows.user
              calls := by rw [same.calls, shows.calls] }

end Read

end

end Simbus.Axi4
