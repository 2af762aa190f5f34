import Simbus.Axi4.Settles

/-!
# Runs of a connection

A session settles command after command.  On a bus whose widths do not agree
it never gets beyond the first edge.
-/

namespace Simbus.Axi4

open FourValued Clocked

/-! ## Commands -/

/-- A write is made. -/
def Command.IsWrite : Command → Prop
  | .wait _ _ | .reset _ _ => False
  | .access one => one.direction = .write

/-- The command keeps to the assertions of the master and the slave. -/
def Command.Answered
    {Device : Type}
    (dev : SlaveDevice Device)
    (widths : Widths) : Command → Prop
  | .wait _ _ => True
  | .reset width settle => 0 < width ∧ 0 < settle
  | .access one => one.Answered dev widths

/-- No word of the command puts a 1 on ARVALID. -/
def Command.KeepsArvalid (widths : Widths) : Command → Prop
  | .wait _ _ | .reset _ _ => True
  | .access one => one.KeepsArvalid widths

/-- Nothing but waits comes before the first reset. -/
def ResetFirst : List Command → Prop
  | [] => False
  | .wait _ _ :: commands => ResetFirst commands
  | .reset _ _ :: _ => True
  | .access _ :: _ => False

instance (commands : List Command) : Decidable (ResetFirst commands) := by
  induction commands with
  | nil =>
      exact .isFalse id
  | cons command commands inductionHypothesis =>
      cases command with
      | wait clks irqMask =>
          exact inductionHypothesis
      | reset width settle =>
          exact .isTrue trivial
      | access one =>
          exact .isFalse id

section

variable {User Device : Type}
variable {server : Widths}
variable {dev : SlaveDevice Device}
variable {master : SimbusAxi4 User}
variable {slave : SimbusAxi4 Device}
variable {mayHang : Prop}

/-- What has come of a part of a session. -/
structure SessionDone
    (server : Widths)
    (dev : SlaveDevice Device)
    (commands : List Command)
    (master : SimbusAxi4 User)
    (slave : SimbusAxi4 Device)
    (master' : SimbusAxi4 User)
    (slave' : SimbusAxi4 Device) : Prop where
  rests : BothRest server dev master' slave'
  masterWidths : master'.widths = master.widths
  slaveWidths : slave'.widths = slave.widths
  wide : ∀ command ∈ commands, command.IsWrite →
    master.widths.widWidth ≠ 1

theorem SessionDone.of_same
    {master' : SimbusAxi4 User}
    {slave' : SimbusAxi4 Device}
    (rests : BothRest server dev master' slave')
    (same : SameUser master slave master' slave') :
    SessionDone server dev [] master slave master' slave' where
  rests := rests
  masterWidths := same.masterWidths
  slaveWidths := same.slaveWidths
  wide := nofun

/-- A command that is no write comes before the rest. -/
theorem SessionDone.cons_same
    {command : Command}
    {commands : List Command}
    {middle master' : SimbusAxi4 User}
    {middle' slave' : SimbusAxi4 Device}
    (noWrite : ¬ command.IsWrite)
    (same : SameUser master slave middle middle')
    (done : SessionDone server dev commands middle middle' master' slave') :
    SessionDone server dev (command :: commands) master slave master'
      slave' where
  rests := done.rests
  masterWidths := done.masterWidths.trans same.masterWidths
  slaveWidths := done.slaveWidths.trans same.slaveWidths
  wide := List.forall_mem_cons.mpr
    ⟨fun isWrite => (noWrite isWrite).elim, same.masterWidths ▸ done.wide⟩

/-- One command, from rest to rest. -/
theorem settles_command
    (command : Command)
    (rests : BothRest server dev master slave)
    (small : master.widths.dataWidth ≤ 64)
    (keeps : command.KeepsArvalid master.widths)
    (answered : ¬ mayHang → command.Answered dev master.widths) :
    (slaveMeeting server).Settles mayHang (command.perform.start master)
      slave
      fun _ => SessionDone server dev [command] master slave := by
  cases command with
  | wait clks irqMask =>
      rw [Command.perform, Program.start_bind]
      apply (rests.settles_wait clks irqMask).bind
      rintro _ master' slave' ⟨rests', same⟩
      exact .finish (.cons_same id same (.of_same rests' .refl))
  | reset width settle =>
      apply (settles_reset rests.idle answered).weaken
      rintro _ master' slave' ⟨rests', same⟩
      exact .cons_same id same (.of_same rests' .refl)
  | access one =>
      rw [Command.perform, Program.start_bind]
      apply (settles_access one rests small keeps answered).bind
      rintro result master' slave' done
      obtain ⟨served, _, after, _⟩ := done.served
      refine .finish ?_
      exact
        { rests := after.rests
          masterWidths := after.masterWidths
          slaveWidths := after.slaveWidths
          wide := List.forall_mem_singleton.mpr done.wide }

/-- A session that goes on from rest. -/
theorem settles_perform
    (commands : List Command)
    (rests : BothRest server dev master slave)
    (small : master.widths.dataWidth ≤ 64)
    (keeps : ∀ command ∈ commands, command.KeepsArvalid master.widths)
    (answered : ¬ mayHang →
      ∀ command ∈ commands, command.Answered dev master.widths) :
    (slaveMeeting server).Settles mayHang ((perform commands).start master)
      slave
      fun _ => SessionDone server dev commands master slave := by
  induction commands generalizing master slave with
  | nil =>
      exact .finish (.of_same rests .refl)
  | cons command commands inductionHypothesis =>
      rw [List.forall_mem_cons] at keeps
      rw [perform, Program.start_bind]
      apply (settles_command command rests small keeps.1 fun no =>
        answered no command List.mem_cons_self).bind
      rintro _ middle middle' first
      have later := inductionHypothesis first.rests
        (first.masterWidths ▸ small) (first.masterWidths ▸ keeps.2)
        (fun no other member => first.masterWidths ▸
          answered no other (List.mem_cons_of_mem command member))
      apply later.weaken
      rintro _ master' slave' second
      exact
        { rests := second.rests
          masterWidths := second.masterWidths.trans first.masterWidths
          slaveWidths := second.slaveWidths.trans first.slaveWidths
          wide := List.forall_mem_cons.mpr
            ⟨List.forall_mem_singleton.mp first.wide,
              first.masterWidths ▸ second.wide⟩ }

/-- A session from the connection on. -/
theorem settles_session
    (commands : List Command)
    (resetFirst : ResetFirst commands)
    (idle : BothIdle server dev master slave)
    (small : master.widths.dataWidth ≤ 64)
    (keeps : ∀ command ∈ commands, command.KeepsArvalid master.widths)
    (answered : ¬ mayHang →
      ∀ command ∈ commands, command.Answered dev master.widths) :
    (slaveMeeting server).Settles mayHang ((perform commands).start master)
      slave
      fun _ => SessionDone server dev commands master slave := by
  induction commands generalizing master slave with
  | nil =>
      exact resetFirst.elim
  | cons command commands inductionHypothesis =>
      rw [List.forall_mem_cons] at keeps
      cases command with
      | wait clks irqMask =>
          rw [perform, Program.start_bind, Command.perform,
            Program.start_bind, Behavior.bind_assoc]
          apply (idle.settles_wait clks irqMask).bind
          rintro _ middle middle' ⟨idle', same⟩
          have later := inductionHypothesis resetFirst idle'
            (same.masterWidths ▸ small) (same.masterWidths ▸ keeps.2)
            (fun no other member => same.masterWidths ▸
              answered no other (List.mem_cons_of_mem _ member))
          exact later.weaken fun _ _ _ => .cons_same id same
      | reset width settle =>
          have lasts : ¬ mayHang → 0 < width ∧ 0 < settle := fun no =>
            answered no _ List.mem_cons_self
          rw [perform, Program.start_bind]
          apply (settles_reset idle lasts).bind
          rintro _ middle middle' ⟨rests, same⟩
          have later : (slaveMeeting server).Settles mayHang
              ((perform commands).start middle) middle'
              fun _ => SessionDone server dev commands middle middle' :=
            settles_perform commands rests
              (same.masterWidths ▸ small) (same.masterWidths ▸ keeps.2)
              (fun no other member => same.masterWidths ▸
                answered no other (List.mem_cons_of_mem _ member))
          exact later.weaken fun _ _ _ => .cons_same id same
      | access one =>
          exact resetFirst.elim

/-! ## Widths that do not agree -/

/-- An edge that never comes. -/
theorem halts_of_incompatible
    (differ : ¬ Compatible server master.widths slave.widths)
    (masterHigh : master.aclk ≠ .zero)
    (slaveHigh : slave.aclk ≠ .zero) :
    (slaveMeeting server).Halts (axi4NextPosedge.start master) slave where
  hangs := fun _ => hangs_of_incompatible differ masterHigh slaveHigh

/-- A wait of some clocks is never done. -/
theorem halts_waitLoop
    {irqMask : Option (BitVec 32)}
    {clks : Nat}
    (differ : ¬ Compatible server master.widths slave.widths)
    (masterHigh : master.aclk ≠ .zero)
    (slaveHigh : slave.aclk ≠ .zero) :
    (slaveMeeting server).Halts
      ((Program.loop (waitTurn irqMask) (clks + 1)).start master) slave := by
  have turn := start_waitTurn master irqMask clks
  have exchanges : ∀ next final rest,
      ((waitTurn irqMask (clks + 1)).start master).run [] ≠
        .finished (.inl next) final rest := by
    intro next final rest
    rw [turn, axi4NextPosedge_waits _ masterHigh]
    nofun
  rw [Program.start_loop exchanges, turn]
  exact (halts_of_incompatible differ masterHigh slaveHigh).bind.bind

/-- The session does not get beyond the reset. -/
theorem halts_session
    (commands : List Command)
    (resetFirst : ResetFirst commands)
    (differ : ¬ Compatible server master.widths slave.widths)
    (masterHigh : master.aclk ≠ .zero)
    (slaveHigh : slave.aclk ≠ .zero) :
    (slaveMeeting server).Halts ((perform commands).start master) slave := by
  induction commands with
  | nil =>
      exact resetFirst.elim
  | cons command commands inductionHypothesis =>
      rw [perform, Program.start_bind]
      cases command with
      | wait clks irqMask =>
          rw [Command.perform, Program.start_bind, Behavior.bind_assoc]
          simp only [simbusAxi4Wait, Program.start_bind,
            Program.start_getState, Behavior.finish_bind, Program.start_ite,
            Program.start_pure]
          split
          · exact inductionHypothesis resetFirst
          · cases clks with
            | zero =>
                rw [start_waitLoop_zero]
                exact inductionHypothesis resetFirst
            | succ clks =>
                exact (halts_waitLoop differ masterHigh slaveHigh).bind
      | reset width settle =>
          by_cases lasts : 0 < width ∧ 0 < settle
          · obtain ⟨clks, rfl⟩ : ∃ clks, width = clks + 1 :=
              ⟨width - 1, by omega⟩
            rw [Command.perform, start_simbusAxi4Reset _ _ lasts,
              start_simbusAxi4Wait]
            have driven : ¬ Compatible server
                { master with aresetN := .zero }.widths slave.widths :=
              differ
            exact (halts_waitLoop driven masterHigh slaveHigh).bind.bind
          · rw [Command.perform, start_simbusAxi4Reset_fails _ _ lasts]
            exact .fail
      | access one =>
          exact resetFirst.elim

/-! ## Connections -/

section Connections

variable {Value : Type}
variable {connection : Connection User Device}
variable {program : MasterCall User Value}

/-- The slave at the start of its loop. -/
def Connection.firstSlave
    (connection : Connection User Device) : SimbusAxi4 Device :=
  { SimbusAxi4.init connection.deviceUser connection.slaveWidths with
    device := some connection.device }

/-- The master as it connects. -/
def Connection.firstMaster
    (connection : Connection User Device) : SimbusAxi4 User :=
  SimbusAxi4.init connection.user connection.masterWidths

/-- The slave runs on. -/
theorem slaveLoop_waits
    {slave : SimbusAxi4 Device}
    (high : slave.aclk ≠ .zero) :
    (slaveLoop.start slave).run [] = .waiting slave := by
  rw [start_slaveLoop high, awaitClock_waits high]
  rfl

/-- The end that a program comes to is the only one. -/
theorem Connection.returns_of_reaches
    {value : Value}
    {master' : SimbusAxi4 User}
    {slave' : SimbusAxi4 Device}
    (masterInside : connection.masterWidths.InArrays)
    (slaveInside : connection.slaveWidths.InArrays)
    (reaches : Pair.Reaches (answer connection.server)
      (connection.start program)
      ⟨0, .finish value master', slaveLoop.start slave'⟩)
    (high : slave'.aclk ≠ .zero) :
    connection.Returns program value slave' ∧
      ∀ other slave, connection.Returns program other slave →
        other = value ∧ slave = slave' := by
  constructor
  · exact ⟨masterInside, slaveInside, 0, master', _, reaches,
      slaveLoop_waits high⟩
  · rintro other slave ⟨_, _, phase, master, second, reachesOther, waits⟩
    have same := reaches.unique (Pair.stuck_of_finish rfl) reachesOther
      (Pair.stuck_of_finish rfl)
    rw [Pair.mk.injEq] at same
    obtain ⟨_, first, rfl⟩ := same
    rw [slaveLoop_waits high, Outcome.waiting.injEq] at waits
    exact ⟨(Behavior.finish_inj first).1, waits.symm⟩

theorem Connection.not_returns
    (hangs : (connection.start program).Hangs (answer connection.server))
    (value : Value)
    (slave : SimbusAxi4 Device) :
    ¬ connection.Returns program value slave := by
  rintro ⟨_, _, phase, master, second, reaches, _⟩
  exact hangs _ reaches value master rfl

/-! ## One access in a session -/

theorem firstIdle
    (compatible : Compatible connection.server connection.masterWidths
      connection.slaveWidths) :
    BothIdle connection.server connection.device connection.firstMaster
      connection.firstSlave where
  compatible := compatible
  masterRests :=
    { aclk := nofun
      awvalid := rfl
      wvalid := rfl
      bready := rfl
      arvalid := rfl
      rready := rfl }
  running := rfl
  slaveIdle :=
    { aclk := nofun
      device := rfl
      awready := nofun
      bvalid := nofun
      rvalid := nofun
      wprot := rfl
      rprot := rfl }

/-- A session, and then one access. -/
def sessionAccess
    (history : List Command)
    (access : Access) :
    MasterCall User (Resp × BitVec access.width.bits) := do
  perform history
  access.perform

/-- The widths agree if the session is ever done. -/
theorem Connection.compatible_of_returns
    {history : List Command}
    {slave : SimbusAxi4 Device}
    (resetFirst : ResetFirst history)
    (returns : connection.Returns (perform history) () slave) :
    Compatible connection.server connection.masterWidths
      connection.slaveWidths := by
  by_contra differ
  have halts : (slaveMeeting connection.server).Halts
      ((perform history).start connection.firstMaster)
      connection.firstSlave :=
    halts_session history resetFirst differ nofun nofun
  have hangs := halts.hangs Behavior.finish
  rw [Behavior.bind_finish] at hangs
  exact Connection.not_returns hangs () slave returns

/-- A session that keeps to all assertions is done. -/
theorem Connection.returns_session
    (connection : Connection User Device)
    {history : List Command}
    (masterInside : connection.masterWidths.InArrays)
    (slaveInside : connection.slaveWidths.InArrays)
    (resetFirst : ResetFirst history)
    (compatible : Compatible connection.server connection.masterWidths
      connection.slaveWidths)
    (small : connection.masterWidths.dataWidth ≤ 64)
    (keeps : ∀ command ∈ history,
      command.KeepsArvalid connection.masterWidths)
    (answered : ∀ command ∈ history,
      command.Answered connection.device connection.masterWidths) :
    ∃ slave, connection.Returns (perform history) () slave := by
  have session : (slaveMeeting connection.server).Settles False
      ((perform history).start connection.firstMaster) connection.firstSlave
      fun _ => SessionDone connection.server connection.device history
        connection.firstMaster connection.firstSlave :=
    settles_session history resetFirst (firstIdle compatible) small keeps
      fun _ => answered
  rcases session.outcome with
    ⟨_, master, slave, done, reaches⟩ | ⟨impossible, _⟩
  · exact ⟨slave,
      (returns_of_reaches masterInside slaveInside reaches
        done.rests.slaveRests.aclk).1⟩
  · exact impossible.elim

/-- After a session that is done comes one access, or it is never done. -/
theorem Connection.access_cases
    (connection : Connection User Device)
    {history : List Command}
    {slave : SimbusAxi4 Device}
    (access : Access)
    (resetFirst : ResetFirst history)
    (small : connection.masterWidths.dataWidth ≤ 64)
    (keeps : ∀ command ∈ history,
      command.KeepsArvalid connection.masterWidths)
    (keepsLast : access.KeepsArvalid connection.masterWidths)
    (returns : connection.Returns (perform history) () slave)
    (answered : ¬ mayHang →
      access.Answered connection.device connection.masterWidths) :
    (∀ command ∈ history, command.IsWrite →
      connection.masterWidths.widWidth ≠ 1) ∧
    ((∃ (master master' : SimbusAxi4 User) (slave' : SimbusAxi4 Device)
        (result : Resp × BitVec access.width.bits),
        Compatible connection.server master.widths slave.widths ∧
        master.widths = connection.masterWidths ∧
        AccessDone connection.server connection.device access master slave
          result master' slave' ∧
        connection.Returns (sessionAccess history access) result slave' ∧
        ∀ other last, connection.Returns (sessionAccess history access) other
            last →
          other = result ∧ last = slave') ∨
      mayHang ∧ ∀ result last,
        ¬ connection.Returns (sessionAccess history access) result last) := by
  have compatible := compatible_of_returns resetFirst returns
  have masterInside := returns.1
  have slaveInside := returns.2.1
  have session : (slaveMeeting connection.server).Settles True
      ((perform history).start connection.firstMaster) connection.firstSlave
      fun _ => SessionDone connection.server connection.device history
        connection.firstMaster connection.firstSlave :=
    settles_session history resetFirst (firstIdle compatible) small keeps
      fun no => (no trivial).elim
  rcases session with ⟨_, middle, middle', done, ends⟩ | ⟨_, halts⟩
  · have reaches := ends.reaches Behavior.finish
    rw [Behavior.bind_finish] at reaches
    obtain ⟨_, only⟩ := returns_of_reaches masterInside slaveInside reaches
      done.rests.slaveRests.aclk
    obtain ⟨_, rfl⟩ := only () slave returns
    refine ⟨done.wide, ?_⟩
    have widths : middle.widths = connection.masterWidths :=
      done.masterWidths
    have settles : (slaveMeeting connection.server).Settles mayHang
        (access.perform.start middle) slave
        (AccessDone connection.server connection.device access middle
          slave) :=
      settles_access access done.rests (widths ▸ small)
        (widths ▸ keepsLast) (fun no => widths ▸ answered no)
    have whole : (slaveMeeting connection.server).Settles mayHang
        ((sessionAccess history access).start connection.firstMaster)
        connection.firstSlave
        (AccessDone connection.server connection.device access middle
          slave) :=
      ends.settles settles
    rcases whole.outcome with
      ⟨result, master', slave', accessDone, reachesLast⟩ | ⟨may, hangs⟩
    · obtain ⟨served, _, after, _⟩ := accessDone.served
      obtain ⟨returnsLast, onlyLast⟩ :=
        returns_of_reaches masterInside slaveInside reachesLast
          after.rests.slaveRests.aclk
      exact .inl ⟨middle, master', slave', result, done.rests.compatible,
        widths, accessDone, returnsLast, onlyLast⟩
    · exact .inr ⟨may, Connection.not_returns hangs⟩
  · have hangs := halts.hangs Behavior.finish
    rw [Behavior.bind_finish] at hangs
    exact (Connection.not_returns hangs () slave returns).elim

end Connections

end

end Simbus.Axi4
