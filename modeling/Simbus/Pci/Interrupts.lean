import Simbus.Pci.Until
import Simbus.Pci.Grant

/-!
# Interrupts from the devices to a host

After every round the UNTIL of a host carries, in each of its four interrupt
vectors, the drives of the devices at their numbers and 1 elsewhere.  The mask
that the host calculates from it has a bit for every line that is driven to 0.
-/

namespace Simbus.Pci

open FourValued PciProtocol

/-! ## The mask -/

section

variable {User Handle : Type}

/-- One loop of `intr_active`. -/
def activeLines (lines : Fin 16 → Logic4) : BitVec 64 :=
  (List.finRange 16).foldl
    (fun mask idx =>
      if lines idx = .zero then mask ||| (1 : BitVec 64) <<< idx.val else mask)
    0

/-- `intr_active`, with its loops and shifts. -/
def SimbusPci.activeMask (pci : SimbusPci User Handle) : BitVec 64 :=
  activeLines (pci.pciIntN 0) |||
    activeLines (pci.pciIntN 1) <<< 16 |||
    activeLines (pci.pciIntN 2) <<< 32 |||
    activeLines (pci.pciIntN 3) <<< 48

theorem foldl_activeLines_getLsbD
    (lines : Fin 16 → Logic4)
    (indices : List (Fin 16))
    (mask : BitVec 64)
    (bit : Nat) :
    (indices.foldl
        (fun mask idx =>
          if lines idx = .zero then mask ||| (1 : BitVec 64) <<< idx.val
          else mask)
        mask).getLsbD bit =
      (mask.getLsbD bit ||
        decide (∃ idx ∈ indices, lines idx = .zero ∧ idx.val = bit)) := by
  induction indices generalizing mask with
  | nil =>
      simp
  | cons idx indices inductionHypothesis =>
      rw [List.foldl_cons, inductionHypothesis]
      have power : (1 : BitVec 64) <<< idx.val = BitVec.twoPow 64 idx.val :=
        (BitVec.twoPow_eq 64 idx.val).symm
      by_cases low : lines idx = .zero
      · rw [if_pos low, power, BitVec.getLsbD_or, BitVec.getLsbD_twoPow,
          Bool.or_assoc]
        have inside : idx.val < 64 := by omega
        simp [low, inside]
      · simp [low]

/-- The loop gives a bit for every line that is at 0. -/
theorem activeLines_getLsbD
    (lines : Fin 16 → Logic4)
    (idx : Fin 16) :
    (activeLines lines).getLsbD idx.val = decide (lines idx = .zero) := by
  rw [activeLines, foldl_activeLines_getLsbD]
  simp [Fin.val_inj]

/-- The loop gives no other bits. -/
theorem activeLines_high
    (lines : Fin 16 → Logic4)
    {bit : Nat}
    (high : 16 ≤ bit) :
    (activeLines lines).getLsbD bit = false := by
  have none : ¬ ∃ idx ∈ List.finRange 16, lines idx = .zero ∧ idx.val = bit := by
    rintro ⟨idx, _, _, same⟩
    omega
  rw [activeLines, foldl_activeLines_getLsbD, decide_eq_false none,
    Bool.or_false]
  exact BitVec.getLsbD_zero

/-- Bit 16*x+i of the mask is the one of number i on line x. -/
theorem activeMask_getLsbD
    (pci : SimbusPci User Handle)
    (line : Fin 4)
    (idx : Fin 16) :
    pci.activeMask.getLsbD (16 * line.val + idx.val) =
      decide (pci.pciIntN line idx = .zero) := by
  have inside := idx.isLt
  have bit (lines : Fin 16 → Logic4) (other : Nat) (small : other < 4) :
      (activeLines lines <<< (16 * other)).getLsbD (16 * line.val + idx.val) =
        (decide (other = line.val) && decide (lines idx = .zero)) := by
    have bounded : 16 * line.val + idx.val < 64 := by omega
    rw [BitVec.getLsbD_shiftLeft]
    rcases Nat.lt_trichotomy other line.val with below | same | above
    · have high : 16 ≤ 16 * line.val + idx.val - 16 * other := by omega
      simp [activeLines_high lines high, below.ne]
    · subst same
      simp [bounded, activeLines_getLsbD]
    · have low : 16 * line.val + idx.val < 16 * other := by omega
      simp [low, above.ne']
  have first : activeLines (pci.pciIntN 0) =
      activeLines (pci.pciIntN 0) <<< (16 * 0) := by
    simp
  rw [SimbusPci.activeMask, first, BitVec.getLsbD_or, BitVec.getLsbD_or,
    BitVec.getLsbD_or, bit _ 0 (by decide), bit _ 1 (by decide),
    bit _ 2 (by decide), bit _ 3 (by decide)]
  match line with
  | 0 | 1 | 2 | 3 => simp

/-- The concatenation of the vectors is what the loops calculate. -/
theorem intrActive_eq (pci : SimbusPci User Handle) :
    intrActive pci = pci.activeMask := by
  have vector (line : Fin 4) (idx : Fin 16) :
      (intLineActive pci line).getLsbD idx.val =
        decide (pci.pciIntN line idx = .zero) := by
    rw [BitVec.getLsbD_eq_getElem idx.isLt, intLineActive, getElem_sampleWord]
    by_cases low : pci.pciIntN line idx = .zero <;> simp [low]
  apply BitVec.eq_of_getLsbD_eq
  intro bit bounded
  have idxBound : bit % 16 < 16 := Nat.mod_lt _ (by decide)
  have lineBound : bit / 16 < 4 := by omega
  have mask := activeMask_getLsbD pci ⟨bit / 16, lineBound⟩ ⟨bit % 16, idxBound⟩
  have place : 16 * (bit / 16) + bit % 16 = bit := Nat.div_add_mod bit 16
  simp only [place] at mask
  rw [mask, ← vector, intrActive]
  simp only [BitVec.getLsbD_append]
  have split : bit / 16 = 0 ∨ bit / 16 = 1 ∨ bit / 16 = 2 ∨ bit / 16 = 3 := by
    omega
  rcases split with quotient | quotient | quotient | quotient <;>
    simp only [quotient]
  · have inLine : bit % 16 = bit := by omega
    rw [if_pos (by omega), inLine]
    rfl
  · have inLine : bit % 16 = bit - 16 := by omega
    rw [if_neg (by omega), if_pos (by omega), inLine]
    rfl
  · have inLine : bit % 16 = bit - 16 - 16 := by omega
    rw [if_neg (by omega), if_neg (by omega), if_pos (by omega), inLine]
    rfl
  · have inLine : bit % 16 = bit - 16 - 16 - 16 := by omega
    rw [if_neg (by omega), if_neg (by omega), if_neg (by omega), inLine]
    rfl

end

/-! ## Collecting -/

variable {n : Nat}
variable {bus : PciBus n}

/-- What the server has collected for a line, by device number. -/
def collected
    (bus : PciBus n)
    (clientSignals : Fin n → ClientSignals)
    (line : Fin 4) : Fin 16 → Option Logic4 :=
  (List.finRange n).foldl (collectInterrupt bus clientSignals line)
    fun _ => none

theorem foldl_collect_other
    (clientSignals : Fin n → ClientSignals)
    (line : Fin 4)
    {idx : Fin 16}
    (devices : List (Fin n))
    (others : ∀ dev ∈ devices, bus.hostFlag dev = false → bus.ident dev ≠ idx)
    (before : Fin 16 → Option Logic4) :
    devices.foldl (collectInterrupt bus clientSignals line) before idx =
      before idx := by
  induction devices generalizing before with
  | nil =>
      rfl
  | cons dev devices inductionHypothesis =>
      rw [List.forall_mem_cons] at others
      rw [List.foldl_cons, inductionHypothesis others.2, collectInterrupt]
      split
      · rfl
      · rename_i notHost
        have differ : idx ≠ bus.ident dev := by
          intro same
          exact others.1 (by simpa using notHost) same.symm
        rw [Function.update_of_ne differ]

theorem foldl_collect_device
    (clientSignals : Fin n → ClientSignals)
    (line : Fin 4)
    {dev : Fin n}
    (isDevice : bus.hostFlag dev = false)
    (devices : List (Fin n))
    (member : dev ∈ devices)
    (distinct : devices.Nodup)
    (before : Fin 16 → Option Logic4) :
    devices.foldl (collectInterrupt bus clientSignals line) before
        (bus.ident dev) =
      some (interruptLevel ((clientSignals dev).intN line)) := by
  induction devices generalizing before with
  | nil =>
      cases member
  | cons first devices inductionHypothesis =>
      rw [List.nodup_cons] at distinct
      rw [List.foldl_cons]
      rcases List.mem_cons.mp member with rfl | later
      · rw [foldl_collect_other]
        · simp [collectInterrupt, isDevice]
        · rintro other among _ same
          exact distinct.1 (bus.identInjective same ▸ among)
      · exact inductionHypothesis later distinct.2 _

/-- The drive of a device stands at its number. -/
theorem collected_device
    (clientSignals : Fin n → ClientSignals)
    (line : Fin 4)
    {dev : Fin n}
    (isDevice : bus.hostFlag dev = false) :
    collected bus clientSignals line (bus.ident dev) =
      some (interruptLevel ((clientSignals dev).intN line)) :=
  foldl_collect_device clientSignals line isDevice _ (List.mem_finRange dev)
    (List.nodup_finRange n) _

/-- Nothing is collected for a number without a device. -/
theorem collected_other
    (clientSignals : Fin n → ClientSignals)
    (line : Fin 4)
    {idx : Fin 16}
    (others : ∀ dev, bus.hostFlag dev = false → bus.ident dev ≠ idx) :
    collected bus clientSignals line idx = none :=
  foldl_collect_other clientSignals line _ (fun dev _ => others dev) _

theorem interruptLevel_eq_zero_iff (level : Option Logic4) :
    interruptLevel level = .zero ↔ level = some .zero := by
  rcases level with _ | level
  · simp [interruptLevel]
  · cases level <;> simp [interruptLevel]

/-! ## Rounds -/

namespace PciProtocol

variable {proto proto' : PciProtocol n}

@[simp] theorem setGnt_intN
    (dev other : Fin n)
    (level : Logic4) :
    ((proto.setGnt dev level).sendSignals other).intN =
      (proto.sendSignals other).intN := by
  by_cases same : other = dev
  · subst other
    simp [setGnt]
  · simp [setGnt, same]

theorem Arbitrated.intN_eq
    (arbitrated : Arbitrated bus proto proto')
    (dev : Fin n) :
    (proto'.sendSignals dev).intN = (proto.sendSignals dev).intN := by
  cases arbitrated with
  | kept _ =>
      rfl
  | recalled _ _ _ _ _ =>
      simp
  | moved _ newDev _ _ _ _ =>
      unfold giveGrant
      split <;> simp

/-- A round writes what it has collected over the vectors of the hosts. -/
theorem Round.intN_eq
    (round : Round bus proto proto')
    (dev : Fin n) :
    (proto'.sendSignals dev).intN =
      (proto.sendSignals dev).intN.map fun sent line idx =>
        (collected bus proto.clientSignals line idx).getD (sent line idx) := by
  cases round with
  | mk arbitrated resetN spec =>
      have same := spec.intN_eq dev
      rw [tracked_sendSignals] at same
      have clients := spec.clientSignals_eq
      rw [tracked_clientSignals] at clients
      have routed : ((arbitrated.finishRound bus (clkVal (proto.phase + 1))
          resetN).sendSignals dev).intN =
          (arbitrated.sendSignals dev).intN.map fun sent line idx =>
            (collected bus arbitrated.clientSignals line idx).getD
              (sent line idx) :=
        rfl
      rw [routed, same, clients]
      rfl

end PciProtocol

/-- The vectors of a host, with 1 wherever there is no device. -/
def HostVectors (bus : PciBus n) (send : SendSignals) : Prop :=
  ∃ sent, send.intN = some sent ∧
    ∀ line idx, (∀ dev, bus.hostFlag dev = false → bus.ident dev ≠ idx) →
      sent line idx = .one

/-- After every number of rounds the hosts have their vectors. -/
theorem serverRun_hostVectors
    {input : ServerInput n}
    {step : Nat}
    {proto : PciProtocol n}
    (success : serverRun bus input step = .ok proto)
    {host : Fin n}
    (isHost : bus.hostFlag host = true) :
    HostVectors bus (proto.sendSignals host) := by
  induction step generalizing proto with
  | zero =>
      rw [serverRun, Except.ok.injEq] at success
      subst success
      refine ⟨fun _ _ => .one, ?_, fun _ _ _ => rfl⟩
      simp only [runInit, initSend, isHost, if_true]
  | succ step inductionHypothesis =>
      obtain ⟨before, reached, success⟩ := serverRun_succ success
      obtain ⟨sent, isSent, ones⟩ := inductionHypothesis reached
      have invariant :=
        (serverRun_grantInvariant reached).report (input.inputs step)
      have round := round_of_runRun invariant.attached success
      refine ⟨_, (round.intN_eq host).trans (congrArg _ isSent), ?_⟩
      intro line idx others
      simp only
      rw [collected_other _ line others]
      exact ones line idx others

/-- The vectors of a host after a round. -/
theorem serverRun_vectors
    {input : ServerInput n}
    {step : Nat}
    {proto : PciProtocol n}
    (success : serverRun bus input (step + 1) = .ok proto)
    {host : Fin n}
    (isHost : bus.hostFlag host = true) :
    ∃ sent, (proto.sendSignals host).intN = some sent ∧
      ∀ line idx, sent line idx = .zero ↔
        ∃ dev, bus.hostFlag dev = false ∧ bus.ident dev = idx ∧
          (input.inputs step dev).intN line = some .zero := by
  obtain ⟨before, reached, success⟩ := serverRun_succ success
  obtain ⟨sent, isSent, ones⟩ := serverRun_hostVectors reached isHost
  have invariant :=
    (serverRun_grantInvariant reached).report (input.inputs step)
  have round := round_of_runRun invariant.attached success
  refine ⟨_, (round.intN_eq host).trans (congrArg _ isSent), ?_⟩
  intro line idx
  simp only
  by_cases some : ∃ dev, bus.hostFlag dev = false ∧ bus.ident dev = idx
  · obtain ⟨dev, isDevice, rfl⟩ := some
    rw [collected_device _ line isDevice, Option.getD_some,
      interruptLevel_eq_zero_iff]
    constructor
    · intro low
      exact ⟨dev, isDevice, rfl, low⟩
    · rintro ⟨other, _, same, low⟩
      exact bus.identInjective same ▸ low
  · have others : ∀ dev, bus.hostFlag dev = false → bus.ident dev ≠ idx :=
      fun dev isDevice same => some ⟨dev, isDevice, same⟩
    rw [collected_other _ line others, Option.getD_none, ones line idx others]
    constructor
    · exact nofun
    · rintro ⟨dev, isDevice, same, _⟩
      exact absurd same (others dev isDevice)

/--
After every round and its UNTIL the mask of a host has bit 16*x+i if and only if
the device with number i drives line x to 0.
-/
theorem intrActive_iff
    {User Handle : Type}
    (bus : PciBus n)
    (input : ServerInput n)
    (step : Nat)
    {proto : PciProtocol n}
    (success : serverRun bus input (step + 1) = .ok proto)
    {host : Fin n}
    (isHost : bus.hostFlag host = true)
    (pci : SimbusPci User Handle) :
    ∃ after, pci.takeTokens (untilTokens (proto.sendSignals host)) = some after ∧
      ∀ (line : Fin 4) (idx : Fin 16),
        after.activeMask.getLsbD (16 * line.val + idx.val) = true ↔
          ∃ dev, bus.hostFlag dev = false ∧ bus.ident dev = idx ∧
            (input.inputs step dev).intN line = some .zero := by
  obtain ⟨sent, isSent, low⟩ := serverRun_vectors success isHost
  refine ⟨_, takeTokens_untilTokens pci _, fun line idx => ?_⟩
  rw [activeMask_getLsbD, decide_eq_true_eq, SimbusPci.sample, isSent]
  exact low line idx

/-- A host and a device, the second of which drives INTB# to 0. -/
def interruptInput : ServerInput 2 where
  reported := fun _ => ⟨none, none, fun _ => none, .released⟩
  inputs := fun _ dev =>
    { resetN := none
      reqN := none
      intN := fun line => if dev = 1 ∧ line = 1 then some .zero else none
      bi := .released }
  random := fun _ => 0

/-- A new client. -/
def newClient : SimbusPci Unit Unit :=
  .init 0 (fun _ => 0) ()

/-- INTB# of the device with number 1 is bit 17. -/
theorem intrActive_pair :
    ∃ proto after,
      serverRun pairBus interruptInput 1 = .ok proto ∧
        newClient.takeTokens (untilTokens (proto.sendSignals 0)) = some after ∧
        after.activeMask.getLsbD 17 = true := by
  have lingers : 0 < pairBus.gntLinger := by decide
  have isHost : pairBus.hostFlag 0 = true := rfl
  obtain ⟨proto, success⟩ := serverRun_survives lingers interruptInput 1
  obtain ⟨after, taken, bits⟩ :=
    intrActive_iff pairBus interruptInput 0 success isHost newClient
  exact ⟨proto, after, success, taken, (bits 1 1).mpr ⟨1, rfl, rfl, rfl⟩⟩

end Simbus.Pci
