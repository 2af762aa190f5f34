import Simbus.Clocked.Pair
import Simbus.Axi4.Master
import Simbus.Axi4.Slave
import Simbus.Message

/-!
# The AXI4 protocol of the server

The server drives the clock and passes every signal on, after a check of its
width.  There is no answer when an assertion fails.
-/

namespace Simbus.Axi4

open FourValued Clocked

/-- `AXI4Protocol::wrap_up_configuration`. -/
def wrapUpConfiguration (options : Widths) : Widths where
  dataWidth := if options.dataWidth = 0 then 32 else options.dataWidth
  addrWidth := if options.addrWidth = 0 then 32 else options.addrWidth
  widWidth := if options.widWidth = 0 then 4 else options.widWidth
  ridWidth := options.ridWidth
  irqWidth := options.irqWidth

/-- The widths that `run_run` expects of the master, with that of ARID. -/
def masterBits (widths : Widths) : MasterSignal → Nat
  | .aresetN | .awvalid | .wvalid | .bready | .arvalid | .rready => 1
  | .awaddr | .araddr => widths.addrWidth
  | .awlen | .arlen => 8
  | .awsize | .arsize | .awprot | .arprot => 3
  | .awburst | .arburst | .awlock | .arlock => 2
  | .awcache | .arcache | .awqos | .arqos => 4
  | .awid | .arid => widths.widWidth
  | .wdata => widths.dataWidth
  | .wstrb => widths.dataWidth / 8

/-- The widths that `run_run` expects of the slave. -/
def slaveBits (widths : Widths) : SlaveSignal → Nat
  | .awready | .wready | .bvalid | .arready | .rvalid => 1
  | .bresp | .rresp => 2
  | .bid => widths.widWidth
  | .rid => widths.ridWidth
  | .rdata => widths.dataWidth
  | .irq => widths.irqWidth

/-- The interrupts are passed on only if there are some. -/
def passToMaster
    (widths : Widths)
    (text : SlaveSignal → Text) : SlaveSignal → Text
  | .irq => if 0 < widths.irqWidth then text .irq else []
  | signal => text signal

/-- All vectors of a bus can be traced. -/
structure CanTrace (widths : Widths) : Prop where
  data : Traced widths.dataWidth
  addr : Traced widths.addrWidth
  wid : Traced widths.widWidth
  rid : Traced widths.ridWidth
  irq : Traced widths.irqWidth

instance (widths : Widths) : Decidable (CanTrace widths) :=
  decidable_of_iff
    (Traced widths.dataWidth ∧ Traced widths.addrWidth ∧
      Traced widths.widWidth ∧ Traced widths.ridWidth ∧
      Traced widths.irqWidth)
    ⟨fun ⟨data, addr, wid, rid, irq⟩ => ⟨data, addr, wid, rid, irq⟩,
      fun ⟨data, addr, wid, rid, irq⟩ => ⟨data, addr, wid, rid, irq⟩⟩

/--
`AXI4Protocol::run_run`, with the phase it goes to.  What `run_init` and this
function trace are the vectors of the configured widths.
-/
def runRun
    (widths : Widths)
    (phase : Nat)
    (master : MasterSignal → Text)
    (slave : SlaveSignal → Text) : Option (Nat × MasterReply × SlaveReply) :=
  let phase := (phase + 1) % 4
  let busClk : Logic4 := if phase / 2 = 0 then .one else .zero
  if CanTrace widths ∧
      (∀ signal, (master signal).length = masterBits widths signal) ∧
      ∀ signal, signal ≠ .irq ∨ 0 < widths.irqWidth →
        (slave signal).length = slaveBits widths signal then
    some (phase, .until busClk (passToMaster widths slave),
      .until busClk master)
  else
    none

section

variable {User Device : Type}

/-- What the server answers to the READYs of its clients. -/
def answer
    (widths : Widths) :
    Answer Nat (SimbusAxi4 User) MasterReply (SimbusAxi4 Device) SlaveReply :=
  fun phase master slave =>
    runRun widths phase master.masterReady slave.slaveReady

/-- The declared widths of the clients are those that the server expects. -/
structure Compatible (server master slave : Widths) : Prop where
  canTrace : CanTrace server
  data : master.dataWidth = server.dataWidth
  slaveData : slave.dataWidth = server.dataWidth
  addr : master.addrWidth = server.addrWidth
  slaveAddr : slave.addrWidth = server.addrWidth
  wid : master.widWidth = server.widWidth
  slaveWid : slave.widWidth = server.widWidth
  arid : master.ridWidth = server.widWidth
  slaveArid : slave.ridWidth = server.widWidth
  rid : server.ridWidth = server.widWidth
  irq : master.irqWidth = server.irqWidth
  slaveIrq : 0 < server.irqWidth → slave.irqWidth = server.irqWidth

theorem length_masterReady
    (bus : SimbusAxi4 User)
    (signal : MasterSignal) :
    (bus.masterReady signal).length =
      (SimbusAxi4.masterLength bus.widths signal).getD 1 := by
  cases signal <;> simp [SimbusAxi4.masterReady, SimbusAxi4.masterLength]

theorem length_slaveReady
    (bus : SimbusAxi4 User)
    (signal : SlaveSignal) :
    (bus.slaveReady signal).length =
      (SimbusAxi4.slaveLength bus.widths signal).getD 1 := by
  cases signal <;> simp [SimbusAxi4.slaveReady, SimbusAxi4.slaveLength]

variable {server : Widths}
variable {master : SimbusAxi4 User}
variable {slave : SimbusAxi4 Device}

/-- The clock in a phase. -/
def clockIn (phase : Nat) : Logic4 :=
  if phase / 2 = 0 then .one else .zero

theorem answer_compatible
    (compatible : Compatible server master.widths slave.widths)
    (phase : Nat) :
    answer server phase master slave =
      some ((phase + 1) % 4,
        .until (clockIn ((phase + 1) % 4))
          (passToMaster server slave.slaveReady),
        .until (clockIn ((phase + 1) % 4)) master.masterReady) := by
  rw [answer, runRun]
  refine if_pos ⟨compatible.canTrace, fun signal => ?_,
    fun signal checked => ?_⟩
  · rw [length_masterReady]
    cases signal <;>
      simp [SimbusAxi4.masterLength, masterBits, compatible.data,
        compatible.addr, compatible.wid, compatible.arid]
  · rw [length_slaveReady]
    cases signal <;>
      simp_all [SimbusAxi4.slaveLength, slaveBits, compatible.slaveData,
        compatible.slaveWid, compatible.slaveArid, compatible.rid,
        compatible.slaveIrq]

theorem masterReady_accepted
    (compatible : Compatible server master.widths slave.widths) :
    SimbusAxi4.HasLengths (SimbusAxi4.masterLength slave.widths)
      master.masterReady := by
  intro signal
  rw [length_masterReady]
  cases signal <;>
    simp [SimbusAxi4.masterLength, compatible.data, compatible.slaveData,
      compatible.addr, compatible.slaveAddr, compatible.wid,
      compatible.slaveWid, compatible.arid, compatible.slaveArid]

theorem slaveReady_accepted
    (compatible : Compatible server master.widths slave.widths) :
    SimbusAxi4.HasLengths (SimbusAxi4.slaveLength master.widths)
      (passToMaster server slave.slaveReady) := by
  intro signal
  cases signal with
  | irq =>
      simp only [SimbusAxi4.slaveLength, passToMaster, compatible.irq]
      split
      · rename_i some
        rw [length_slaveReady, SimbusAxi4.slaveLength, Option.getD_some,
          compatible.slaveIrq some]
        exact .inr rfl
      · rename_i none
        exact .inr (congrArg Option.some (Nat.eq_zero_of_not_pos none))
  | _ =>
      simp [SimbusAxi4.slaveLength, passToMaster, length_slaveReady,
        compatible.data, compatible.slaveData, compatible.wid,
        compatible.slaveWid, compatible.arid, compatible.slaveArid]

/-- Nothing but equal widths passes all checks. -/
theorem compatible_of_accepted
    {phase phase' : Nat}
    {toMaster : SlaveSignal → Text}
    {toSlave : MasterSignal → Text}
    {clock : Logic4}
    (answered : answer server phase master slave =
      some (phase', .until clock toMaster, .until clock toSlave))
    (byMaster : SimbusAxi4.HasLengths
      (SimbusAxi4.slaveLength master.widths) toMaster)
    (bySlave : SimbusAxi4.HasLengths
      (SimbusAxi4.masterLength slave.widths) toSlave) :
    Compatible server master.widths slave.widths := by
  simp only [answer, runRun, Option.ite_none_right_eq_some,
    Option.some.injEq, Prod.mk.injEq, MasterReply.until.injEq,
    SlaveReply.until.injEq] at answered
  obtain ⟨⟨canTrace, fromMaster, fromSlave⟩, _, ⟨_, rfl⟩, _, rfl⟩ := answered
  simp only [length_masterReady] at fromMaster
  simp only [length_slaveReady] at fromSlave
  have data := fromMaster .wdata
  have addr := fromMaster .awaddr
  have wid := fromMaster .awid
  have arid := fromMaster .arid
  have slaveData := fromSlave .rdata (.inl nofun)
  have slaveWid := fromSlave .bid (.inl nofun)
  have rid := fromSlave .rid (.inl nofun)
  have irq := byMaster .irq
  have slaveIrq := fromSlave .irq
  have slaveAddr := bySlave .awaddr
  have slaveArid := bySlave .arid
  rw [length_masterReady] at slaveAddr slaveArid
  simp only [SimbusAxi4.masterLength, SimbusAxi4.slaveLength, masterBits,
    slaveBits, Option.getD_some, passToMaster, reduceCtorEq, false_or,
    Option.some.injEq, ne_eq, not_true_eq_false] at *
  have sameIrq : master.widths.irqWidth = server.irqWidth := by
    split at irq
    · rename_i some
      rw [irq, length_slaveReady]
      exact slaveIrq some
    · rename_i none
      rw [irq]
      exact (Nat.eq_zero_of_not_pos none).symm
  exact
    { canTrace := canTrace
      data := data
      slaveData := slaveData
      addr := addr
      slaveAddr := slaveAddr.trans addr
      wid := wid
      slaveWid := slaveWid
      arid := arid
      slaveArid := slaveArid.trans arid
      rid := rid.symm.trans (slaveArid.trans arid)
      irq := sameIrq
      slaveIrq := slaveIrq }

end

end Simbus.Axi4
