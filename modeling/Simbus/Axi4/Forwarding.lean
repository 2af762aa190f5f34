import Simbus.Axi4.Server

/-!
# What the AXI4 protocol forwards

Both clients declare the same widths and send every signal as wide as they
have declared it.  The protocol expects other widths if the write id width or
one of the main widths is 0, or if the two id widths differ, and it cannot trace
more than 1024 bits.
-/

namespace Simbus.Axi4

open FourValued

/-! ## Declarations -/

/-- The options after some HELLOs: what has been set first stays. -/
def optionsAfter : List Widths → Widths
  | [] => ⟨0, 0, 0, 0, 0⟩
  | first :: _ => first

/-- The width of a signal of the master by what has been declared. -/
def declaredMaster (widths : Widths) : MasterSignal → Nat
  | .arid => widths.ridWidth
  | signal => masterBits widths signal

/-- The clients send every signal as wide as it has been declared. -/
structure AsDeclared
    (widths : Widths)
    (reported : SignalMap String × SignalMap String) : Prop where
  master : ∀ signal : MasterSignal,
    (reported.1 signal.name).length = declaredMaster widths signal
  slave : ∀ signal : SlaveSignal,
    (reported.2 signal.name).length = slaveBits widths signal

/-! ## Runs -/

namespace AXI4Protocol

/-- What a number of steps sends to both clients. -/
def replies :
    AXI4Protocol → List (SignalMap String × SignalMap String) →
      Option (List (MasterReply × SlaveReply))
  | _, [] => some []
  | proto, (master, slave) :: rest => do
      let (proto, toMaster, toSlave) ← proto.runRun master slave
      let later ← proto.replies rest
      return (toMaster, toSlave) :: later

end AXI4Protocol

/-- The reply to each client has the signals of the other one unchanged. -/
def Delivered
    (reported : SignalMap String × SignalMap String)
    (reply : MasterReply × SlaveReply) : Prop :=
  ∃ toMaster toSlave clock,
    reply = (.until clock toMaster, .until clock toSlave) ∧
    (∀ signal : MasterSignal,
      toSlave signal = vectorText (reported.1 signal.name)) ∧
    ∀ signal : SlaveSignal,
      toMaster signal = vectorText (reported.2 signal.name)

/-- The run has no failed assertion, and everything is delivered. -/
def Forwards
    (proto : AXI4Protocol)
    (inputs : List (SignalMap String × SignalMap String)) : Prop :=
  ∃ replies, proto.replies inputs = some replies ∧
    List.Forall₂ Delivered inputs replies

/-- Widths that the protocol takes as they have been declared. -/
structure TakenAsDeclared (widths : Widths) : Prop where
  dataWidth : widths.dataWidth ≠ 0
  addrWidth : widths.addrWidth ≠ 0
  widWidth : widths.widWidth ≠ 0
  sameIds : widths.ridWidth = widths.widWidth
  tracedIds : Traced widths.widWidth
  tracedIrq : Traced widths.irqWidth

section

variable {widths : Widths}
variable {proto : AXI4Protocol}
variable {reported : SignalMap String × SignalMap String}

theorem length_vectorText (vector : Vector4) :
    (vectorText vector).length = vector.length :=
  List.length_reverse

/-- Widths that the library accepts can be traced if the others can. -/
theorem TakenAsDeclared.canTrace
    (taken : TakenAsDeclared widths)
    (smallData : widths.dataWidth ≤ 64)
    (smallAddr : widths.addrWidth ≤ 64) :
    CanTrace widths where
  data := Nat.lt_of_le_of_lt smallData (by decide)
  addr := Nat.lt_of_le_of_lt smallAddr (by decide)
  wid := taken.tracedIds
  rid := taken.sameIds ▸ taken.tracedIds
  irq := taken.tracedIrq

/-- The widths of the options, where they are taken as declared. -/
theorem TakenAsDeclared.configured
    (taken : TakenAsDeclared widths)
    (smallData : widths.dataWidth ≤ 64)
    (smallAddr : widths.addrWidth ≤ 64) :
    wrapUpConfiguration (AXI4Protocol.readWidths widths) = widths := by
  have wideData : AXI4Protocol.unsignedOf widths.dataWidth =
      widths.dataWidth :=
    Nat.mod_eq_of_lt (by omega)
  have wideAddr : AXI4Protocol.unsignedOf widths.addrWidth =
      widths.addrWidth :=
    Nat.mod_eq_of_lt (by omega)
  have wideWid : AXI4Protocol.unsignedOf widths.widWidth = widths.widWidth :=
    Nat.mod_eq_of_lt taken.tracedIds.small
  have wideRid : AXI4Protocol.unsignedOf widths.ridWidth = widths.ridWidth :=
    Nat.mod_eq_of_lt (taken.sameIds ▸ taken.tracedIds.small)
  have wideIrq : AXI4Protocol.unsignedOf widths.irqWidth = widths.irqWidth :=
    Nat.mod_eq_of_lt taken.tracedIrq.small
  simp only [wrapUpConfiguration, AXI4Protocol.readWidths, wideData,
    wideAddr, wideWid, wideRid, wideIrq, if_neg taken.dataWidth,
    if_neg taken.addrWidth, if_neg taken.widWidth]

/-- One step delivers what is as wide as it should be. -/
theorem runRun_delivers
    (taken : TakenAsDeclared proto.widths)
    (canTrace : CanTrace proto.widths)
    (declared : AsDeclared proto.widths reported) :
    ∃ toMaster toSlave,
      proto.runRun reported.1 reported.2 =
        some ({ proto with clock := proto.clock.advanceBusClock }, toMaster,
          toSlave) ∧
      Delivered reported (toMaster, toSlave) := by
  have accepted : CanTrace proto.widths ∧
      (∀ signal, (AXI4Protocol.masterTexts reported.1 signal).length =
        masterBits proto.widths signal) ∧
      ∀ signal, signal ≠ .irq ∨ 0 < proto.widths.irqWidth →
        (AXI4Protocol.slaveTexts reported.2 signal).length =
          slaveBits proto.widths signal := by
    refine ⟨canTrace, fun signal => ?_, fun signal _ => ?_⟩
    · rw [AXI4Protocol.masterTexts, length_vectorText, declared.master]
      cases signal with
      | arid =>
          exact taken.sameIds
      | _ =>
          rfl
    · rw [AXI4Protocol.slaveTexts, length_vectorText, declared.slave]
  rw [AXI4Protocol.runRun, runRun, if_pos accepted]
  refine ⟨_, _, rfl, _, _, _, rfl, fun _ => rfl, fun signal => ?_⟩
  cases signal with
  | irq =>
      rw [passToMaster]
      split
      · rfl
      · rename_i none
        have length := declared.slave .irq
        rw [slaveBits, Nat.eq_zero_of_not_pos none,
          List.length_eq_zero_iff] at length
        rw [length]
        rfl
  | _ =>
      rfl

/-- A run delivers everything. -/
theorem forwards_run
    (taken : TakenAsDeclared proto.widths)
    (canTrace : CanTrace proto.widths)
    {inputs : List (SignalMap String × SignalMap String)}
    (declared : ∀ reported ∈ inputs, AsDeclared proto.widths reported) :
    Forwards proto inputs := by
  induction inputs generalizing proto with
  | nil =>
      exact ⟨[], rfl, .nil⟩
  | cons reported rest inductionHypothesis =>
      rw [List.forall_mem_cons] at declared
      obtain ⟨toMaster, toSlave, ran, delivered⟩ :=
        runRun_delivers taken canTrace declared.1
      have later : Forwards
          { proto with clock := proto.clock.advanceBusClock } rest :=
        inductionHypothesis taken canTrace declared.2
      obtain ⟨replies, ranLater, deliveredLater⟩ := later
      refine ⟨(toMaster, toSlave) :: replies, ?_, .cons delivered
        deliveredLater⟩
      simp only [AXI4Protocol.replies, ran, ranLater, Option.bind_eq_bind,
        Option.bind_some, Option.pure_def]

/-- The interrupts are delivered only if the server knows how many there are. -/
theorem irq_small
    {options : Widths}
    (declared : AsDeclared options reported)
    (accepted : 0 < (AXI4Protocol.readWidths options).irqWidth →
      options.irqWidth = (AXI4Protocol.readWidths options).irqWidth)
    (delivered : (if 0 < (AXI4Protocol.readWidths options).irqWidth then
      vectorText (reported.2 "IRQ") else []) =
        vectorText (reported.2 "IRQ")) :
    options.irqWidth < 2 ^ 32 := by
  by_cases some : 0 < (AXI4Protocol.readWidths options).irqWidth
  · rw [accepted some]
    exact Nat.mod_lt _ (Nat.two_pow_pos 32)
  · rw [if_neg some] at delivered
    have none := congrArg List.length delivered
    have length : (reported.2 "IRQ").length = options.irqWidth :=
      declared.slave .irq
    rw [length_vectorText, length] at none
    rw [← none]
    exact Nat.two_pow_pos 32

/-- A first step that delivers everything has the declared widths. -/
theorem taken_of_delivered
    {options : Widths}
    {rest : List (SignalMap String × SignalMap String)}
    (isWidths : proto.widths =
      wrapUpConfiguration (AXI4Protocol.readWidths options))
    (smallData : options.dataWidth ≤ 64)
    (smallAddr : options.addrWidth ≤ 64)
    (declared : AsDeclared options reported)
    (forwards : Forwards proto (reported :: rest)) :
    TakenAsDeclared options := by
  obtain ⟨replies, ran, delivered⟩ := forwards
  simp only [AXI4Protocol.replies, Option.bind_eq_bind,
    Option.bind_eq_some_iff, Option.pure_def, Option.some.injEq] at ran
  obtain ⟨⟨next, toMaster, toSlave⟩, ranNow, later, _, rfl⟩ := ran
  rw [List.forall₂_cons] at delivered
  rw [AXI4Protocol.runRun, Option.map_eq_some_iff] at ranNow
  obtain ⟨⟨phase, _, _⟩, answered, isResult⟩ := ranNow
  cases isResult
  simp only [runRun, Option.ite_none_right_eq_some, Option.some.injEq,
    Prod.mk.injEq] at answered
  obtain ⟨⟨canTrace, fromMaster, fromSlave⟩, _, rfl, rfl⟩ := answered
  obtain ⟨⟨_, _, _, isReply, _, toMasterSame⟩, _⟩ := delivered
  rw [Prod.mk.injEq, MasterReply.until.injEq] at isReply
  obtain ⟨⟨_, rfl⟩, _⟩ := isReply
  have irq := toMasterSame .irq
  rw [passToMaster, isWidths] at irq
  simp only [AXI4Protocol.masterTexts, AXI4Protocol.slaveTexts,
    length_vectorText, declared.master, declared.slave, isWidths]
    at fromMaster fromSlave
  have data : options.dataWidth =
      if options.dataWidth % 2 ^ 32 = 0 then 32
      else options.dataWidth % 2 ^ 32 :=
    fromMaster .wdata
  have addr : options.addrWidth =
      if options.addrWidth % 2 ^ 32 = 0 then 32
      else options.addrWidth % 2 ^ 32 :=
    fromMaster .awaddr
  have wid : options.widWidth =
      if options.widWidth % 2 ^ 32 = 0 then 4
      else options.widWidth % 2 ^ 32 :=
    fromMaster .awid
  have rid : options.ridWidth =
      if options.widWidth % 2 ^ 32 = 0 then 4
      else options.widWidth % 2 ^ 32 :=
    fromMaster .arid
  have smallIrq : options.irqWidth < 2 ^ 32 :=
    irq_small declared (fun some => fromSlave .irq (.inr some)) irq
  have tracedWid : Traced (if options.widWidth % 2 ^ 32 = 0 then 4
      else options.widWidth % 2 ^ 32) :=
    (isWidths ▸ canTrace).wid
  have tracedIrq : Traced (options.irqWidth % 2 ^ 32) :=
    (isWidths ▸ canTrace).irq
  have notZero : options.dataWidth ≠ 0 ∧ options.addrWidth ≠ 0 := by
    split at data <;> split at addr <;> omega
  have someIds : options.widWidth ≠ 0 := by
    split at wid <;> omega
  exact
    { dataWidth := notZero.1
      addrWidth := notZero.2
      widWidth := someIds
      sameIds := rid.trans wid.symm
      tracedIds := wid ▸ tracedWid
      tracedIrq := Nat.mod_eq_of_lt smallIrq ▸ tracedIrq }

/--
Two clients that declare the same widths: every run in which they keep to them
goes on without a failed assertion and with everything delivered exactly if no
main width is 0, the id widths are the same and not 0, and ids and interrupts
can be traced.
-/
theorem forwards_iff
    (widths : Widths)
    (proto : AXI4Protocol)
    (inputs : List (SignalMap String × SignalMap String))
    (smallData : widths.dataWidth ≤ 64)
    (smallAddr : widths.addrWidth ≤ 64)
    (steps : inputs ≠ [])
    (declared : ∀ reported ∈ inputs, AsDeclared widths reported) :
    Forwards (proto.configure (optionsAfter [widths, widths])) inputs ↔
      TakenAsDeclared widths := by
  constructor
  · intro forwards
    obtain ⟨reported, rest, rfl⟩ := List.exists_cons_of_ne_nil steps
    exact taken_of_delivered rfl smallData smallAddr
      (declared reported List.mem_cons_self) forwards
  · intro taken
    have configured := taken.configured smallData smallAddr
    have isWidths :
        (proto.configure (optionsAfter [widths, widths])).widths = widths :=
      configured
    apply forwards_run
    · rw [isWidths]
      exact taken
    · rw [isWidths]
      exact taken.canTrace smallData smallAddr
    · rw [isWidths]
      exact declared

/-! ## A bus of 32 bits -/

/-- All signals of the master. -/
def masterSignals : List MasterSignal :=
  [.aresetN, .awvalid, .awaddr, .awlen, .awsize, .awburst, .awlock, .awcache,
    .awprot, .awqos, .awid, .wvalid, .wdata, .wstrb, .bready, .arvalid,
    .araddr, .arlen, .arsize, .arburst, .arlock, .arcache, .arprot, .arqos,
    .arid, .rready]

/-- All signals of the slave. -/
def slaveSignals : List SlaveSignal :=
  [.awready, .wready, .bvalid, .bresp, .bid, .arready, .rvalid, .rdata,
    .rresp, .rid, .irq]

/-- A report of zeros, as wide as declared. -/
def zeros (widths : Widths) : SignalMap String × SignalMap String :=
  (fun name =>
      ((masterSignals.find? fun signal => signal.name = name).map
        fun signal => List.replicate (declaredMaster widths signal)
          .zero).getD [],
    fun name =>
      ((slaveSignals.find? fun signal => signal.name = name).map
        fun signal => List.replicate (slaveBits widths signal)
          .zero).getD [])

theorem zeros_asDeclared (widths : Widths) :
    AsDeclared widths (zeros widths) where
  master := by
    intro signal
    cases signal <;>
      simp [zeros, masterSignals, MasterSignal.name]
  slave := by
    intro signal
    cases signal <;>
      simp [zeros, slaveSignals, SlaveSignal.name]

/-- A clock of four equal phases. -/
def evenClock : ClockOptions :=
  ⟨2, 2, 1, 1⟩

/-- The protocol object with such a clock. -/
def evenProtocol : AXI4Protocol where
  clock := .ofOptions evenClock
  widths := ⟨0, 0, 0, 0, 0⟩

/-- Two steps with ids of 4 bits in both directions. -/
theorem forwards_iff_sameIds :
    Forwards (evenProtocol.configure (optionsAfter
        [⟨32, 32, 4, 4, 0⟩, ⟨32, 32, 4, 4, 0⟩]))
      [zeros ⟨32, 32, 4, 4, 0⟩, zeros ⟨32, 32, 4, 4, 0⟩] := by
  have declared : ∀ reported ∈
      [zeros ⟨32, 32, 4, 4, 0⟩, zeros ⟨32, 32, 4, 4, 0⟩],
      AsDeclared ⟨32, 32, 4, 4, 0⟩ reported :=
    List.forall_mem_cons.mpr ⟨zeros_asDeclared _,
      List.forall_mem_singleton.mpr (zeros_asDeclared _)⟩
  have taken : TakenAsDeclared ⟨32, 32, 4, 4, 0⟩ :=
    ⟨nofun, nofun, nofun, rfl, by decide, by decide⟩
  exact (forwards_iff ⟨32, 32, 4, 4, 0⟩ evenProtocol _ (by decide)
    (by decide) (List.cons_ne_nil _ _) declared).mpr taken

/-- With read ids of 5 bits the first step fails. -/
theorem wideReadIds_fail :
    AsDeclared ⟨32, 32, 4, 5, 0⟩ (zeros ⟨32, 32, 4, 5, 0⟩) ∧
      ¬ Forwards (evenProtocol.configure (optionsAfter
          [⟨32, 32, 4, 5, 0⟩, ⟨32, 32, 4, 5, 0⟩]))
        [zeros ⟨32, 32, 4, 5, 0⟩] := by
  have declared := zeros_asDeclared ⟨32, 32, 4, 5, 0⟩
  refine ⟨declared, fun forwards => ?_⟩
  have taken := taken_of_delivered rfl (by decide) (by decide) declared
    forwards
  cases taken.sameIds

end

end Simbus.Axi4
