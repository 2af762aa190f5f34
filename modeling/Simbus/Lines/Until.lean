import Simbus.ClientSignals
import Simbus.Lines.Ready
import Simbus.Pci.Until

/-!
# The UNTIL lines of the server

What `bus_ready` writes to the devices of a bus after a step.  PCI and
point-to-point lines always have room.  The vectors of an AXI4 bus are as wide as
the protocol has been told, and those of a PCIe bus as wide as the other end has
reported them.
-/

namespace Simbus

open FourValued

/-! ## Messages -/

/-- The tokens of a message to an AXI4 master. -/
def Axi4.MasterReply.tokens : Axi4.MasterReply → Tokens String
  | .until aclk text =>
      ("ACLK", [aclk]) ::
        Axi4.slaveSignals.map fun signal => (signal.name, text signal)
  | .finish => []

/-- The tokens of a message to an AXI4 slave. -/
def Axi4.SlaveReply.tokens : Axi4.SlaveReply → Tokens String
  | .until aclk text =>
      ("ACLK", [aclk]) ::
        Axi4.masterSignals.map fun signal => (signal.name, text signal)
  | .finish => []

namespace ProtocolObject

variable {n : Nat}

/-- `run_run`, with the tokens of the UNTIL lines that follow it. -/
def send
    (random : Nat)
    (signals : PlugSignals n) :
    ProtocolObject n → Option (ProtocolObject n × List (Fin n × Tokens String))
  | .pci bus proto =>
      (Pci.allSignalsOf signals).bind fun reported =>
        (Pci.PciProtocol.runRun bus random
          { proto with clientSignals := reported }).toOption.map fun next =>
            (.pci bus next,
              (List.finRange n).map fun dev =>
                (dev, Pci.untilTokens (next.sendSignals dev)))
  | .pointToPoint master slave proto =>
      (proto.runRun (signals master) (signals slave)).map
        fun (next, toHost, toDevice) =>
          (.pointToPoint master slave next,
            [(master, toHost), (slave, toDevice)])
  | .axi4 master slave proto =>
      (proto.runRun (signals master) (signals slave)).map
        fun (next, toMaster, toSlave) =>
          (.axi4 master slave next,
            [(master, toMaster.tokens), (slave, toSlave.tokens)])
  | .pcieTlp master slave proto =>
      (proto.runRun (signals master) (signals slave)).map
        fun (next, toMaster, toSlave) =>
          (.pcieTlp master slave next,
            [(master, toMaster), (slave, toSlave)])

/-- Sending changes nothing about the step. -/
theorem send_runRun
    (proto : ProtocolObject n)
    (random : Nat)
    (signals : PlugSignals n) :
    (proto.send random signals).map Prod.fst =
      proto.runRun random signals := by
  cases proto with
  | pci bus proto =>
      simp only [send, runRun, Option.map_bind, Function.comp_def,
        Option.map_map]
  | pointToPoint master slave proto =>
      simp only [send, runRun, Option.map_map, Function.comp_def]
  | axi4 master slave proto =>
      simp only [send, runRun, Option.map_map, Function.comp_def]
  | pcieTlp master slave proto =>
      simp only [send, runRun, Option.map_map, Function.comp_def]

end ProtocolObject

/-! ## Their lengths -/

/-- The UNTIL of some tokens. -/
def untilLine (time : SimTime) (tokens : Tokens String) : Message where
  keyword := "UNTIL"
  time := time
  tokens := tokens

theorem length_untilLine (time : SimTime) (tokens : Tokens String) :
    (untilLine time tokens).length =
      7 + time.textLength + tokensLength tokens := by
  have keyword : "UNTIL".length = 5 := by
    decide
  rw [Message.length_eq, untilLine, keyword]

namespace Axi4.AXI4Protocol

variable {proto next : AXI4Protocol}
variable {master slave : SignalMap String}
variable {toMaster : MasterReply}
variable {toSlave : SlaveReply}

theorem tokenLength_aclk (aclk : Logic4) : tokenLength ("ACLK", [aclk]) = 7 := by
  have name : "ACLK".length = 4 := by
    decide
  rw [tokenLength, name]
  rfl

/-- A step sends every signal with its width. -/
theorem runRun_lengths
    (ran : proto.runRun master slave = some (next, toMaster, toSlave)) :
    next.clock = proto.clock.advanceBusClock ∧
      tokensLength toMaster.tokens =
        94 + proto.widths.widWidth + proto.widths.dataWidth +
          proto.widths.ridWidth + proto.widths.irqWidth ∧
      tokensLength toSlave.tokens =
        270 + 2 * proto.widths.addrWidth + 2 * proto.widths.widWidth +
          proto.widths.dataWidth + proto.widths.dataWidth / 8 := by
  rw [runRun, Option.map_eq_some_iff] at ran
  obtain ⟨⟨phase, _, _⟩, answered, isResult⟩ := ran
  cases isResult
  simp only [Axi4.runRun, Option.ite_none_right_eq_some, Option.some.injEq,
    Prod.mk.injEq] at answered
  obtain ⟨⟨_, fromMaster, fromSlave⟩, _, rfl, rfl⟩ := answered
  refine ⟨rfl, ?_, ?_⟩
  · have all : slaveSignals = channelSignals ++ [.irq] := rfl
    have irqName : SlaveSignal.irq.name.length = 3 := by
      decide
    have channels : ∀ signal ∈ channelSignals,
        (passToMaster proto.widths (slaveTexts slave) signal).length =
          slaveBits proto.widths signal := by
      intro signal isChannel
      have notIrq : signal ≠ .irq := by
        rintro rfl
        revert isChannel
        decide
      rw [← fromSlave signal (.inl notIrq)]
      cases signal <;> first | rfl | exact absurd rfl notIrq
    have irq : (passToMaster proto.widths (slaveTexts slave) .irq).length =
        proto.widths.irqWidth := by
      rw [passToMaster]
      split
      · rename_i some
        exact fromSlave .irq (.inr some)
      · rename_i none
        exact (Nat.eq_zero_of_not_pos none).symm
    rw [MasterReply.tokens, tokensLength_cons, tokenLength_aclk, all,
      List.map_append, tokensLength_append, tokensLength_map, channelNames,
      List.map_congr_left channels, sum_slaveBits, List.map_singleton,
      tokensLength_cons, tokensLength_nil, tokenLength, irqName, irq]
    omega
  · rw [SlaveReply.tokens, tokensLength_cons, tokenLength_aclk,
      tokensLength_map, masterNames]
    simp only [fromMaster]
    rw [sum_masterBits]
    omega

end Axi4.AXI4Protocol

namespace Pcie.PCIeTLP

variable {proto next : PCIeTLP}
variable {master slave : SignalMap String}
variable {toMaster toSlave : Tokens String}

/-- The bits that one end has reported of some signals. -/
def reportedBits (names : List String) (reported : SignalMap String) : Nat :=
  (names.map fun name => (reported name).length).sum

theorem tokensLength_passOn
    (names : List String)
    (reported : SignalMap String) :
    tokensLength (passOn names reported) =
      (names.map fun name => name.length + 2).sum +
        reportedBits names reported := by
  rw [passOn, tokensLength_map]
  simp only [vectorText, List.length_reverse]
  rfl

/-- A step sends the vectors as the other end has reported them. -/
theorem runRun_lengths
    (ran : proto.runRun master slave = some (next, toMaster, toSlave)) :
    next.clock = proto.clock.advanceBusClock ∧
      tokensLength toMaster = 153 + reportedBits slaveSignals slave ∧
      tokensLength toSlave = 134 + reportedBits masterSignals master := by
  rw [runRun, Option.ite_none_right_eq_some] at ran
  obtain ⟨_, ran⟩ := ran
  cases ran
  have clockName : "user_clk".length = 8 := by
    decide
  have userName : "s_axis_tx_user".length = 14 := by
    decide
  have slaveNames :
      (slaveSignals.map fun name => name.length + 2).sum = 104 := by
    decide
  have masterNames :
      (masterSignals.map fun name => name.length + 2).sum = 123 := by
    decide
  refine ⟨rfl, ?_, ?_⟩
  · rw [tokensLength_cons, tokensLength_cons, tokensLength_passOn, slaveNames,
      tokenLength, tokenLength, clockName, userName, List.length_singleton,
      List.length_replicate]
    omega
  · rw [tokensLength_cons, tokensLength_passOn, masterNames, tokenLength,
      clockName, List.length_singleton]
    omega

end Pcie.PCIeTLP

namespace P2p.PointToPoint

variable {proto next : PointToPoint}
variable {master slave : SignalMap String}
variable {toHost toDevice : Tokens String}

/-- A step sends no more than can be traced. -/
theorem runRun_lengths
    (ran : proto.runRun master slave = some (next, toHost, toDevice)) :
    next.clock = proto.clock.advanceBusClock ∧
      tokensLength toHost ≤ 1040 ∧
      tokensLength toDevice ≤ 1040 := by
  rw [runRun, Option.ite_none_right_eq_some] at ran
  obtain ⟨⟨tracedO, tracedI⟩, ran⟩ := ran
  cases ran
  have clockName : "CLOCK".length = 5 := by
    decide
  have outName : "DATA_O".length = 6 := by
    decide
  have inName : "DATA_I".length = 6 := by
    decide
  have isSize : traceSize = 1025 := rfl
  rw [Traced, length_copyData, isSize] at tracedO tracedI
  refine ⟨rfl, ?_, ?_⟩
  · simp only [tokensLength_cons, tokensLength_nil, tokenLength, clockName,
      inName, vectorText, List.length_reverse, length_copyData,
      List.length_singleton]
    omega
  · simp only [tokensLength_cons, tokensLength_nil, tokenLength, clockName,
      outName, vectorText, List.length_reverse, length_copyData,
      List.length_singleton]
    omega

end P2p.PointToPoint

namespace Pci

theorem length_linesText
    {width : Nat}
    (lines : Fin width → Logic4) :
    (linesText lines).length = width := by
  rw [linesText, vectorText, List.length_reverse, List.length_ofFn]

theorem tokensLength_interruptTokens (send : SendSignals) :
    tokensLength (interruptTokens send) ≤ 92 := by
  have names : ((List.finRange 4).map fun line =>
      (interruptName line).length + 2).sum = 28 := by
    decide
  rw [interruptTokens]
  split
  · exact Nat.zero_le _
  · rw [tokensLength_map, names]
    simp [length_linesText]

theorem tokensLength_resetTokens (send : SendSignals) :
    tokensLength (resetTokens send) ≤ 9 := by
  have name : "RESET#".length = 6 := by
    decide
  rw [resetTokens]
  split
  · exact Nat.zero_le _
  · rw [tokensLength_cons, tokensLength_nil, tokenLength, name]
    exact Nat.le_refl 9

/-- The line of a PCI device has some 300 characters, whatever it is. -/
theorem tokensLength_untilTokens (send : SendSignals) :
    tokensLength (untilTokens send) ≤ 400 := by
  have interrupts := tokensLength_interruptTokens send
  have reset := tokensLength_resetTokens send
  simp only [untilTokens, tokensLength_append, tokensLength_cons,
    tokensLength_nil, tokenLength, length_linesText, List.length_singleton]
  exact Nat.le_trans
    (Nat.add_le_add_right
      (Nat.add_le_add
        (Nat.add_le_add_right (Nat.add_le_add_left interrupts _) _) reset) _)
    (by decide)

end Pci

/-! ## A step -/

namespace ProtocolObject

variable {n : Nat}
variable {proto next : ProtocolObject n}
variable {random : Nat}
variable {signals : PlugSignals n}
variable {sent : List (Fin n × Tokens String)}

/-- The clock of the protocols that have one from the options. -/
def clock? : ProtocolObject n → Option BusClock
  | .pci _ _ => none
  | .pointToPoint _ _ proto => some proto.clock
  | .axi4 _ _ proto => some proto.clock
  | .pcieTlp _ _ proto => some proto.clock

/-- A step advances the clock. -/
theorem send_clock
    (isSent : proto.send random signals = some (next, sent)) :
    next.clock? = proto.clock?.map BusClock.advanceBusClock := by
  cases proto with
  | pci bus proto =>
      simp only [send, Option.bind_eq_some_iff, Option.map_eq_some_iff,
        Prod.mk.injEq] at isSent
      obtain ⟨_, _, _, _, rfl, _⟩ := isSent
      rfl
  | pointToPoint master slave proto =>
      rw [send, Option.map_eq_some_iff] at isSent
      obtain ⟨⟨_, _, _⟩, ran, isResult⟩ := isSent
      cases isResult
      exact congrArg some (P2p.PointToPoint.runRun_lengths ran).1
  | axi4 master slave proto =>
      rw [send, Option.map_eq_some_iff] at isSent
      obtain ⟨⟨_, _, _⟩, ran, isResult⟩ := isSent
      cases isResult
      exact congrArg some (Axi4.AXI4Protocol.runRun_lengths ran).1
  | pcieTlp master slave proto =>
      rw [send, Option.map_eq_some_iff] at isSent
      obtain ⟨⟨_, _, _⟩, ran, isResult⟩ := isSent
      cases isResult
      exact congrArg some (Pcie.PCIeTLP.runRun_lengths ran).1

/--
The devices have room for the UNTIL lines of a step: on an AXI4 bus for its
widths, and on a PCIe bus for what its ends have reported.
-/
def HasRoom
    (room : Fin n → Nat)
    (signals : PlugSignals n) : ProtocolObject n → Prop
  | .pci _ _ => True
  | .pointToPoint _ _ _ => True
  | .axi4 master slave proto =>
      let time := proto.clock.advanceBusClock.time.textLength
      time + 101 + proto.widths.widWidth + proto.widths.dataWidth +
          proto.widths.ridWidth + proto.widths.irqWidth ≤ room master ∧
        time + 277 + 2 * proto.widths.addrWidth + 2 * proto.widths.widWidth +
          proto.widths.dataWidth + proto.widths.dataWidth / 8 ≤ room slave
  | .pcieTlp master slave proto =>
      let time := proto.clock.advanceBusClock.time.textLength
      time + 160 +
          Pcie.PCIeTLP.reportedBits Pcie.slaveSignals (signals slave) ≤
            room master ∧
        time + 141 +
          Pcie.PCIeTLP.reportedBits Pcie.masterSignals (signals master) ≤
            room slave

/-- The lines of a step fit exactly if the devices have room for them. -/
theorem send_fits_iff
    {room : Fin n → Nat}
    {time : SimTime}
    (isSent : proto.send random signals = some (next, sent))
    (isTime : ∀ clock ∈ next.clock?, clock.time = time)
    (ofServer : time.OfServer)
    (large : ∀ dev, lineSize ≤ room dev) :
    (∀ line ∈ sent, (untilLine time line.2).length ≤ room line.1) ↔
      proto.HasRoom room signals := by
  have small := ofServer.textLength_le
  have isSize : lineSize = 4095 := rfl
  simp only [length_untilLine]
  cases proto with
  | pci bus proto =>
      simp only [send, Option.bind_eq_some_iff, Option.map_eq_some_iff,
        Prod.mk.injEq] at isSent
      obtain ⟨_, _, next, _, _, rfl⟩ := isSent
      refine iff_of_true (fun line member => ?_) trivial
      obtain ⟨dev, _, rfl⟩ := List.mem_map.mp member
      have tokens := Pci.tokensLength_untilTokens (next.sendSignals dev)
      have enough := large dev
      simp only
      omega
  | pointToPoint master slave proto =>
      rw [send, Option.map_eq_some_iff] at isSent
      obtain ⟨⟨_, toHost, toDevice⟩, ran, isResult⟩ := isSent
      cases isResult
      obtain ⟨_, hostTokens, deviceTokens⟩ :=
        P2p.PointToPoint.runRun_lengths ran
      have hostRoom := large master
      have deviceRoom := large slave
      refine iff_of_true ?_ trivial
      rw [List.forall_mem_cons, List.forall_mem_singleton]
      constructor
      · simp only
        omega
      · simp only
        omega
  | axi4 master slave proto =>
      rw [send, Option.map_eq_some_iff] at isSent
      obtain ⟨⟨_, _, _⟩, ran, isResult⟩ := isSent
      cases isResult
      obtain ⟨isNext, toMaster, toSlave⟩ :=
        Axi4.AXI4Protocol.runRun_lengths ran
      have timed := isTime _ rfl
      rw [isNext] at timed
      rw [List.forall_mem_cons, List.forall_mem_singleton, HasRoom, timed,
        toMaster, toSlave]
      simp only
      refine and_congr ?_ ?_
      · omega
      · omega
  | pcieTlp master slave proto =>
      rw [send, Option.map_eq_some_iff] at isSent
      obtain ⟨⟨_, _, _⟩, ran, isResult⟩ := isSent
      cases isResult
      obtain ⟨isNext, toMaster, toSlave⟩ := Pcie.PCIeTLP.runRun_lengths ran
      have timed := isTime _ rfl
      rw [isNext] at timed
      rw [List.forall_mem_cons, List.forall_mem_singleton, HasRoom, timed,
        toMaster, toSlave]
      simp only
      refine and_congr ?_ ?_
      · omega
      · omega

end ProtocolObject

end Simbus
