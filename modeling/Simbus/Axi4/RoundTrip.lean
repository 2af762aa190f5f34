import Simbus.Axi4.Runs

/-!
# Accesses of a master at its slave

What a master asks for is what the callback of the slave gets, where the slave
has a branch for it; the callback always sees a protection of 0.  The answer of
the callback comes back as it is only if it says that the access has succeeded.
-/

namespace Simbus.Axi4

open FourValued Clocked

section

variable {User Device : Type}

/-! ## Responses -/

/-- A code comes back as it is if it is a success, and never otherwise. -/
theorem Resp.seen_eq_iff (resp : Resp) :
    resp = resp.seen ↔ resp.Succeeds := by
  cases resp <;> decide

/--
In a session that starts with a reset, an access has one callback, whose response
it returns, exactly if the slave has a branch for it and the callback reports
success.
-/
theorem response_returned_iff
    (connection : Connection User Device)
    (history : List Command)
    (access : Access)
    (result : Resp × BitVec access.width.bits)
    (before after : SimbusAxi4 Device)
    (resetFirst : ResetFirst history)
    (keeps : ∀ command ∈ history,
      command.KeepsArvalid connection.masterWidths)
    (keepsLast : access.KeepsArvalid connection.masterWidths)
    (ranBefore : connection.Returns (perform history) () before)
    (ranAfter : connection.Returns (sessionAccess history access) result
      after) :
    ∃ calls, after.calls = before.calls ++ calls ∧
      ((∃ call, calls = [call] ∧ call.resp = result.1) ↔
        access.HasBranch ∧ ∀ call ∈ calls, call.resp.Succeeds) := by
  have small : connection.masterWidths.dataWidth ≤ 64 :=
    ranBefore.1.master .wdata _ rfl
  have mayHang : ¬ True → access.Answered connection.device
      connection.masterWidths :=
    fun no => (no trivial).elim
  obtain ⟨_, cases⟩ := connection.access_cases access resetFirst small keeps
    keepsLast ranBefore mayHang
  rcases cases with
    ⟨master, master', slave', outcome, _, _, done, _, only⟩ | ⟨_, never⟩
  · obtain ⟨rfl, rfl⟩ := only result after ranAfter
    obtain ⟨served, _, afterAccess, isResp, answers, count, _⟩ := done.served
    refine ⟨served.calls, afterAccess.calls, ?_⟩
    rw [isResp]
    constructor
    · rintro ⟨call, only, same⟩
      rw [only] at answers count ⊢
      have branch : access.HasBranch := by
        by_contra no
        rw [if_neg no] at count
        cases count
      refine ⟨branch, List.forall_mem_singleton.mpr ?_⟩
      have equal := (List.forall_mem_singleton.mp answers).symm.trans same
      rw [List.forall_mem_singleton.mp answers]
      exact (Resp.seen_eq_iff _).mp equal
    · rintro ⟨branch, succeeds⟩
      rw [if_pos branch] at count
      obtain ⟨call, only⟩ := List.length_eq_one_iff.mp count
      rw [only] at answers succeeds
      have isResp := List.forall_mem_singleton.mp answers
      have success := succeeds call (List.mem_singleton_self call)
      refine ⟨call, only, ?_⟩
      rw [isResp] at success ⊢
      exact (Resp.seen_eq_iff _).mpr success
  · exact (never result after ranAfter).elim

/-- A slave that answers everything in one way. -/
def answering (resp : Resp) : SlaveDevice Unit where
  write64 := some fun _ _ _ user => (resp, user)
  write32 := some fun _ _ _ user => (resp, user)
  write16 := some fun _ _ _ user => (resp, user)
  write8 := some fun _ _ _ user => (resp, user)
  read64 := some fun _ _ user => (resp, 0, user)
  read32 := some fun _ _ user => (resp, 0, user)
  read16 := some fun _ _ user => (resp, 0, user)
  read8 := some fun _ _ user => (resp, 0, user)

/-- The widths of a bus of 32 bits. -/
def wordWidths : Widths :=
  ⟨32, 32, 4, 4, 0⟩

/-- A bus of 32 bits with a slave that answers everything in one way. -/
def answeringConnection (resp : Resp) : Connection Unit Unit where
  server := wordWidths
  masterWidths := wordWidths
  slaveWidths := wordWidths
  user := ()
  device := answering resp
  deviceUser := ()

theorem wordWidths_fewIds : wordWidths.FewIds where
  wid := by decide
  rid := by decide
  irq := by decide

theorem wordWidths_inArrays : wordWidths.InArrays :=
  (Widths.inArrays_iff (by decide) (by decide)).mpr wordWidths_fewIds

theorem wordWidths_compatible :
    Compatible wordWidths wordWidths wordWidths where
  canTrace := by decide
  data := rfl
  slaveData := rfl
  addr := rfl
  slaveAddr := rfl
  wid := rfl
  slaveWid := rfl
  arid := rfl
  slaveArid := rfl
  rid := rfl
  irq := rfl
  slaveIrq := fun _ => rfl

/-- The read of the first word. -/
def firstRead : Access :=
  ⟨.read, .w32, 0, 0, 0⟩

theorem firstRead_carried : wordWidths.Carries firstRead.width.bits 0 where
  narrow := by decide
  small := by decide
  fits := by decide
  aligned := by decide
  inRange := by decide

theorem firstRead_answered (resp : Resp) :
    firstRead.Answered (answering resp) wordWidths where
  fits := by decide
  carries := firstRead_carried
  complete := ⟨rfl, rfl, rfl, rfl, rfl, rfl, rfl, rfl⟩
  wide := nofun

/-- What such a slave calls it answers in its way. -/
theorem answering_resp
    {resp : Resp}
    {slave : SimbusAxi4 Unit}
    {served : Served Unit}
    (serves : ServedBy (answering resp) slave served)
    (called : served.calls ≠ []) :
    served.resp = resp := by
  obtain ⟨beat, device, _, wrote | ⟨after, read⟩⟩ := serves
  · simp only [writeData, Option.ite_none_right_eq_some] at wrote
    have lanes := wrote.2
    simp only [writeLane, device, answering, Option.bind_eq_bind,
      Option.bind_some] at lanes
    split at lanes
    · cases lanes
      rfl
    · split at lanes
      · cases lanes
        rfl
      · cases lanes
        exact (called rfl).elim
  · simp only [readData, Option.ite_none_right_eq_some] at read
    have lanes := read.2
    simp only [readLane, device, answering, Option.bind_eq_bind,
      Option.bind_some] at lanes
    split at lanes
    · cases lanes
      rfl
    · split at lanes
      · cases lanes
        rfl
      · split at lanes
        · cases lanes
          rfl
        · cases lanes
          exact (called rfl).elim

/-- After a reset the first word is read with one call. -/
theorem answeringConnection_returns (resp : Resp) :
    ∃ before after data,
      (answeringConnection resp).Returns (perform [.reset 1 1]) () before ∧
      (answeringConnection resp).Returns
        (sessionAccess [.reset 1 1] firstRead) (resp.seen, data) after ∧
      after.calls = before.calls ++ [firstRead.call data resp] := by
  have resetFirst : ResetFirst [.reset 1 1] := trivial
  have small : wordWidths.dataWidth ≤ 64 := by decide
  have keeps : ∀ command ∈ [Command.reset 1 1],
      command.KeepsArvalid wordWidths :=
    List.forall_mem_singleton.mpr trivial
  have answered : ∀ command ∈ [Command.reset 1 1],
      command.Answered (answering resp) wordWidths :=
    List.forall_mem_singleton.mpr ⟨by decide, by decide⟩
  obtain ⟨before, ranBefore⟩ := Connection.returns_session
    (answeringConnection resp) wordWidths_inArrays wordWidths_inArrays
    resetFirst wordWidths_compatible small keeps answered
  have mayHang : ¬ False → firstRead.Answered (answering resp) wordWidths :=
    fun _ => firstRead_answered resp
  have keepsLast : firstRead.KeepsArvalid wordWidths := by
    intro isWrite
    cases isWrite
  have cases := ((answeringConnection resp).access_cases firstRead
    resetFirst small keeps keepsLast ranBefore mayHang).2
  rcases cases with
    ⟨master, master', after, result, _, widths, done, ranAfter, _⟩ |
      ⟨impossible, _⟩
  · obtain ⟨served, serves, afterAccess, isResp, _, _, calls⟩ := done.served
    have carried : master.widths.Carries firstRead.width.bits 0 := by
      rw [widths]
      exact firstRead_carried
    have called : served.calls = [firstRead.call result.2 served.resp] :=
      calls carried
    have same : served.resp = resp := answering_resp serves (by simp [called])
    rw [same] at called isResp
    refine ⟨before, after, result.2, ranBefore, ?_, ?_⟩
    · rw [← isResp]
      exact ranAfter
    · rw [afterAccess.calls, called]
  · exact impossible.elim

/-- A read whose callback answers SLVERR returns OKAY. -/
theorem failedRead_returnsOkay :
    ∃ before after data,
      (answeringConnection .slverr).Returns (perform [.reset 1 1]) ()
        before ∧
      (answeringConnection .slverr).Returns
        (sessionAccess [.reset 1 1] firstRead) (.okay, data) after ∧
      after.calls = before.calls ++ [firstRead.call data .slverr] :=
  answeringConnection_returns .slverr

/-- A read whose callback answers EXOKAY. -/
theorem response_returned_iff_firstRead :
    ∃ before after data,
      (answeringConnection .exokay).Returns (perform [.reset 1 1]) ()
        before ∧
      (answeringConnection .exokay).Returns
        (sessionAccess [.reset 1 1] firstRead) (.exokay, data) after ∧
      after.calls = before.calls ++ [firstRead.call data .exokay] ∧
      ∃ calls, after.calls = before.calls ++ calls ∧
        ((∃ call, calls = [call] ∧ call.resp = .exokay) ↔
          firstRead.HasBranch ∧ ∀ call ∈ calls, call.resp.Succeeds) := by
  obtain ⟨before, after, data, ranBefore, ranAfter, called⟩ :=
    answeringConnection_returns .exokay
  have keeps : ∀ command ∈ [Command.reset 1 1],
      command.KeepsArvalid wordWidths :=
    List.forall_mem_singleton.mpr trivial
  have keepsLast : firstRead.KeepsArvalid wordWidths := by
    intro isWrite
    cases isWrite
  exact ⟨before, after, data, ranBefore, ranAfter, called,
    response_returned_iff (answeringConnection .exokay) [.reset 1 1]
      firstRead (.exokay, data) before after trivial keeps keepsLast
      ranBefore ranAfter⟩

/-! ## Callbacks -/

/-- The command keeps to the assertions of the master. -/
def Command.Valid (widths : Widths) : Command → Prop
  | .wait _ _ => True
  | .reset width settle => 0 < width ∧ 0 < settle
  | .access one => one.Valid widths

/--
Server, master and slave have been told the same widths, the data width is a
power of two, the assertions of the connection hold, and the slave has all
callbacks.
-/
structure Connection.Declared (connection : Connection User Device) :
    Prop where
  server : connection.server = wrapUpConfiguration connection.masterWidths
  slave : connection.slaveWidths = connection.masterWidths
  power : ∃ exponent, connection.masterWidths.dataWidth = 2 ^ exponent
  dataWidth : connection.masterWidths.dataWidth ≤ 64
  addrWidth : connection.masterWidths.addrWidth ≤ 64
  complete : connection.device.Complete

/--
After a session the access returns with exactly one callback, which has its
arguments and produces its data.
-/
def Connection.Delivers
    (connection : Connection User Device)
    (history : List Command)
    (access : Access) : Prop :=
  ∃ before after data resp answer,
    connection.Returns (perform history) () before ∧
    connection.Returns (sessionAccess history access) (resp, data) after ∧
    after.calls = before.calls ++
      [⟨access.direction, access.width.bits, access.addr, access.prot, data,
        answer⟩] ∧
    (access.direction = .write → data = access.data)

/-- Widths with which the exchange works at all. -/
structure Widths.Work (widths : Widths) : Prop where
  sameIds : widths.widWidth = widths.ridWidth
  wid : widths.widWidth ≠ 0
  addr : widths.addrWidth ≠ 0
  fewIds : widths.FewIds

/-- The protocol and the clients take these widths as they are, and no others. -/
theorem compatible_declared
    {widths : Widths}
    (some : widths.dataWidth ≠ 0)
    (smallData : widths.dataWidth ≤ 64)
    (smallAddr : widths.addrWidth ≤ 64) :
    Compatible (wrapUpConfiguration widths) widths widths ∧
        widths.InArrays ↔
      widths.Work := by
  rw [Widths.inArrays_iff smallAddr smallData]
  constructor
  · rintro ⟨compatible, fewIds⟩
    have wid := compatible.wid
    have addr := compatible.addr
    simp only [wrapUpConfiguration] at wid addr
    refine ⟨compatible.wid.trans compatible.arid.symm, ?_, ?_, fewIds⟩
    · intro none
      rw [if_pos none, none] at wid
      cases wid
    · intro none
      rw [if_pos none, none] at addr
      cases addr
  · rintro ⟨same, wid, addr, fewIds⟩
    have server : wrapUpConfiguration widths = widths := by
      simp only [wrapUpConfiguration, if_neg some, if_neg wid, if_neg addr]
    rw [server]
    refine ⟨?_, fewIds⟩
    exact
      { canTrace :=
          { data := Nat.lt_of_le_of_lt smallData (by decide)
            addr := Nat.lt_of_le_of_lt smallAddr (by decide)
            wid := Nat.lt_of_le_of_lt fewIds.wid (by decide)
            rid := Nat.lt_of_le_of_lt fewIds.rid (by decide)
            irq := Nat.lt_of_le_of_lt fewIds.irq (by decide) }
        data := rfl
        slaveData := rfl
        addr := rfl
        slaveAddr := rfl
        wid := rfl
        slaveWid := rfl
        arid := same.symm
        slaveArid := same.symm
        rid := same.symm
        irq := rfl
        slaveIrq := fun _ => rfl }

theorem Connection.Declared.compatible_iff
    {connection : Connection User Device}
    (declared : connection.Declared)
    (some : connection.masterWidths.dataWidth ≠ 0) :
    Compatible connection.server connection.masterWidths
          connection.slaveWidths ∧
        connection.masterWidths.InArrays ↔
      connection.masterWidths.Work := by
  rw [declared.server, declared.slave]
  exact compatible_declared some declared.dataWidth declared.addrWidth

/-- A natural word of a bus lies on it. -/
theorem Access.Valid.carries
    {widths : Widths}
    {access : Access}
    (valid : access.Valid widths)
    (power : ∃ exponent, widths.dataWidth = 2 ^ exponent)
    (small : widths.dataWidth ≤ 64)
    (narrow : widths.addrWidth ≤ 64) :
    widths.Carries access.width.bits access.addr where
  narrow := narrow
  small := small
  fits := by
    obtain ⟨exponent, isPower⟩ := power
    have bits := access.width.two_pow_size
    have fits := valid.fits
    have enough : access.width.size + 3 ≤ exponent := by
      apply (Nat.pow_le_pow_iff_right (by decide : 1 < 2)).mp
      rw [Nat.pow_add, ← isPower]
      omega
    have bytes : widths.dataWidth / 8 = 2 ^ (exponent - 3) := by
      rw [isPower]
      have positive : 0 < 2 := by decide
      have atLeast : 3 ≤ exponent := by omega
      exact Nat.pow_div atLeast positive
    have word : access.width.bits / 8 = 2 ^ access.width.size := by omega
    have divides : access.width.bits / 8 ∣ widths.dataWidth / 8 := by
      rw [word, bytes]
      exact Nat.pow_dvd_pow 2 (by omega)
    have positive : 0 < widths.dataWidth / 8 := by
      rw [bytes]
      exact Nat.two_pow_pos _
    have inside := aligned_fits divides positive valid.aligned
    rw [dataPref]
    omega
  aligned := valid.aligned
  inRange := valid.inRange

/-- A word that lies on the bus does not reach as far as ARVALID. -/
theorem Widths.Carries.keepsArvalid
    {widths : Widths}
    {access : Access}
    (carries : widths.Carries access.width.bits access.addr) :
    access.KeepsArvalid widths := by
  intro _ idx inside reaches
  have fits := carries.fits
  have small := carries.small
  omega

/-- A callback that sees the protection of the access sees 0. -/
theorem Access.called_once
    (access : Access)
    {data data' : BitVec access.width.bits}
    {resp answer : Resp}
    (same :
      (if access.HasBranch then [access.call data resp] else []) =
        [⟨access.direction, access.width.bits, access.addr, access.prot,
          data', answer⟩]) :
    access.HasBranch ∧ access.prot = 0 := by
  by_cases branch : access.HasBranch
  · rw [if_pos branch, Access.call, List.cons.injEq, SlaveCall.mk.injEq]
      at same
    obtain ⟨⟨_, _, _, prot, _⟩, _⟩ := same
    exact ⟨branch, prot.symm⟩
  · rw [if_neg branch] at same
    cases same

/-- The commands of a session keep to ARVALID. -/
theorem Connection.Declared.keeps
    {connection : Connection User Device}
    {history : List Command}
    (declared : connection.Declared)
    (valid : ∀ command ∈ history, command.Valid connection.masterWidths) :
    ∀ command ∈ history,
      command.KeepsArvalid connection.masterWidths := by
  intro command member
  cases command with
  | wait clks irqMask =>
      trivial
  | reset width settle =>
      trivial
  | access one =>
      have validOne : one.Valid connection.masterWidths := valid _ member
      exact (validOne.carries declared.power declared.dataWidth
        declared.addrWidth).keepsArvalid

/-- What an access that gets through is like. -/
theorem Connection.Delivers.called
    {connection : Connection User Device}
    {history : List Command}
    {access : Access}
    (delivers : connection.Delivers history access)
    (resetFirst : ResetFirst history)
    (small : connection.masterWidths.dataWidth ≤ 64)
    (keeps : ∀ command ∈ history,
      command.KeepsArvalid connection.masterWidths)
    (carries : connection.masterWidths.Carries access.width.bits
      access.addr) :
    (connection.masterWidths.widWidth = 1 →
        ∀ command ∈ history ++ [.access access], ¬ command.IsWrite) ∧
      access.prot = 0 ∧
      access.HasBranch := by
  obtain ⟨before, after, data, resp, answer, ranBefore, ranAfter, calls, _⟩ :=
    delivers
  have mayHang : ¬ True → access.Answered connection.device
      connection.masterWidths :=
    fun no => (no trivial).elim
  obtain ⟨wide, cases⟩ := connection.access_cases access resetFirst small
    keeps carries.keepsArvalid ranBefore mayHang
  rcases cases with
    ⟨master, master', slave', result, _, widths, done, _, only⟩ | ⟨_, never⟩
  · obtain ⟨_, rfl⟩ := only (resp, data) after ranAfter
    obtain ⟨served, _, afterAccess, _, _, _, called⟩ := done.served
    rw [widths] at called
    have same := afterAccess.calls.symm.trans calls
    rw [called carries, List.append_cancel_left_eq] at same
    obtain ⟨branch, prot⟩ := access.called_once same
    refine ⟨fun single command member isWrite => ?_, prot, branch⟩
    rcases List.mem_append.mp member with earlier | last
    · exact wide command earlier isWrite single
    · rw [List.mem_singleton.mp last] at isWrite
      exact done.wide isWrite (widths ▸ single)
  · exact (never _ after ranAfter).elim

/--
Which accesses get through: on a bus whose two id widths are the same and not
0, whose address width is not 0, and whose ids and interrupts are in the arrays
of the clients, without any write if the ids have one bit, those with a
protection of 0 for which the slave has a branch.
-/
theorem access_delivered_iff
    (connection : Connection User Device)
    (history : List Command)
    (access : Access)
    (declared : connection.Declared)
    (resetFirst : ResetFirst history)
    (validHistory : ∀ command ∈ history,
      command.Valid connection.masterWidths)
    (valid : access.Valid connection.masterWidths) :
    connection.Delivers history access ↔
      connection.masterWidths.Work ∧
      (connection.masterWidths.widWidth = 1 →
        ∀ command ∈ history ++ [.access access], ¬ command.IsWrite) ∧
      access.prot = 0 ∧
      access.HasBranch := by
  have carries := valid.carries declared.power declared.dataWidth
    declared.addrWidth
  have keeps := declared.keeps validHistory
  have some : connection.masterWidths.dataWidth ≠ 0 := by
    have bits := access.width.le_bits
    have fits := valid.fits
    omega
  have agree := declared.compatible_iff some
  constructor
  · intro delivers
    have called := delivers.called resetFirst declared.dataWidth keeps carries
    obtain ⟨before, _, _, _, _, ranBefore, _⟩ := delivers
    have compatible := Connection.compatible_of_returns resetFirst ranBefore
    exact ⟨agree.mp ⟨compatible, ranBefore.1⟩, called⟩
  · rintro ⟨agrees, noWrite, prot, branch⟩
    obtain ⟨compatible, inside⟩ := agree.mpr agrees
    have answers : ∀ one : Access, one.Valid connection.masterWidths →
        .access one ∈ history ++ [.access access] →
        one.Answered connection.device connection.masterWidths := by
      intro one validOne member
      exact
        { fits := validOne.fits
          carries := validOne.carries declared.power declared.dataWidth
            declared.addrWidth
          complete := declared.complete
          wide := fun isWrite single => noWrite single _ member isWrite }
    have answered : ∀ command ∈ history,
        command.Answered connection.device connection.masterWidths := by
      intro command member
      have validOne := validHistory command member
      cases command with
      | wait clks irqMask =>
          trivial
      | reset width settle =>
          exact validOne
      | access one =>
          exact answers one validOne (List.mem_append_left _ member)
    obtain ⟨before, ranBefore⟩ := connection.returns_session inside
      (declared.slave ▸ inside) resetFirst compatible declared.dataWidth keeps
      answered
    have last : ¬ False → access.Answered connection.device
        connection.masterWidths :=
      fun _ => answers access valid (List.mem_append_right _
        (List.mem_singleton.mpr rfl))
    have cases := (connection.access_cases access resetFirst
      declared.dataWidth keeps carries.keepsArvalid ranBefore last).2
    rcases cases with
      ⟨master, master', after, result, _, widths, done, ranAfter, _⟩ |
        ⟨impossible, _⟩
    · obtain ⟨served, _, afterAccess, _, _, _, called⟩ := done.served
      rw [widths] at called
      refine ⟨before, after, result.2, result.1, served.resp, ranBefore,
        ranAfter, ?_, done.data⟩
      rw [afterAccess.calls, called carries, if_pos branch, Access.call, prot]
    · exact impossible.elim

/-! ## A bus of 32 bits -/

theorem answeringConnection_declared (resp : Resp) :
    (answeringConnection resp).Declared where
  server := rfl
  slave := rfl
  power := ⟨5, rfl⟩
  dataWidth := (by decide : wordWidths.dataWidth ≤ 64)
  addrWidth := (by decide : wordWidths.addrWidth ≤ 64)
  complete := ⟨rfl, rfl, rfl, rfl, rfl, rfl, rfl, rfl⟩

theorem firstReset_valid :
    ∀ command ∈ [Command.reset 1 1], command.Valid wordWidths :=
  List.forall_mem_singleton.mpr ⟨by decide, by decide⟩

theorem firstRead_valid : firstRead.Valid wordWidths where
  fits := by decide
  aligned := by decide
  inRange := by decide

/-- The read of the first word gets through. -/
theorem access_delivered_iff_firstRead :
    (answeringConnection .okay).Delivers [.reset 1 1] firstRead :=
  (access_delivered_iff (answeringConnection .okay) [.reset 1 1] firstRead
    (answeringConnection_declared .okay) trivial firstReset_valid
    firstRead_valid).mpr
      ⟨⟨rfl, nofun, nofun, wordWidths_fewIds⟩, nofun, rfl, trivial⟩

/-- The read of the first word with a privileged protection. -/
def privilegedRead : Access :=
  ⟨.read, .w32, 0, 1, 0⟩

theorem privilegedRead_valid : privilegedRead.Valid wordWidths where
  fits := by decide
  aligned := by decide
  inRange := by decide

/-- The callback does not see that a read is privileged. -/
theorem privilegedRead_not_delivered :
    (answeringConnection .okay).Declared ∧
      ResetFirst [.reset 1 1] ∧
      (∀ command ∈ [Command.reset 1 1], command.Valid wordWidths) ∧
      privilegedRead.Valid wordWidths ∧
      ¬ (answeringConnection .okay).Delivers [.reset 1 1]
        privilegedRead := by
  have declared := answeringConnection_declared .okay
  have small : wordWidths.dataWidth ≤ 64 := declared.dataWidth
  have keeps := declared.keeps firstReset_valid
  have carries := privilegedRead_valid.carries declared.power
    declared.dataWidth declared.addrWidth
  refine ⟨declared, trivial, firstReset_valid, privilegedRead_valid,
    fun delivers => ?_⟩
  have sees := (delivers.called trivial small keeps carries).2.1
  cases sees

end

end Simbus.Axi4
