import Simbus.Pci.ClockCycles
import Simbus.Pci.Master
import Mathlib

/-!
# The attribute phase of PCI-X

On a PCI-X bus a master has an attribute phase after its address phases.  The loop
of `__address_command` does not shift the attribute, so that all AD lines are
driven with its lowest bit, which is 0, and the test for the fourth lane of C/BE#
looks at two other bits.
-/

namespace Simbus.Pci

open FourValued Clocked

section

variable {User Handle : Type}

/-- The bus, device and function number of a requester. -/
def requesterAttribute (ident : Nat) : BitVec 32 :=
  (simbusPciDfn ident 0).setWidth 32 <<< 8

/-- A target reads these attributes back from what is driven. -/
def ReadsAttribute
    (ident : Nat)
    (ben : BitVec 32)
    (out : BiSignals) : Prop :=
  ∀ target : SimbusPci Unit Unit, CarriesAddress out target.seen →
    getLowWord target = requesterAttribute ident ∧
      getCommand target = ben.setWidth 4

/-- The lanes of C/BE# in the attribute phase. -/
def attributeLanes (ben : BitVec 32) : BitVec 4 :=
  let attrC := ben &&& 0x0f
  BitVec.ofBool (attrC &&& 5 ≠ 0) ++ BitVec.ofBool (attrC &&& 4 ≠ 0) ++
    BitVec.ofBool (attrC &&& 2 ≠ 0) ++ BitVec.ofBool (attrC &&& 1 ≠ 0)

/-- A master in its attribute phase. -/
def attributeDriven
    (ben : BitVec 32)
    (pci : SimbusPci User Handle) : SimbusPci User Handle :=
  { pci with out := driveLowBe (attributeLanes ben) (driveAddress 0 pci.out) }

/-- The turnaround, and the end of the address phases. -/
def endAttribute (burst : Bool) : Call User Handle Unit := do
  drive (driveLowBe 0xf)
  pciNextPosedge
  Program.modifyState (startData burst)

/-- The attribute is always 0. -/
theorem endAddress_pcix
    {pci : SimbusPci User Handle}
    (isPcix : pci.pcixcap = .one)
    (ben : BitVec 32)
    (burst : Bool) :
    (endAddress ben burst).start pci =
      (pciNextPosedge.start (attributeDriven ben pci)).bind fun _ =>
        (endAttribute burst).start := by
  have even : (((BitVec.ofNat 32 (pci.ident * 8) &&& 0xf8) <<< 8).getLsbD 0) =
      false := by
    simp
  have pcix : pcixMode pci = true := decide_eq_true isPcix
  simp only [endAddress, attributePhase, pcix, pcixAttributePhase, drive,
    if_true, even, Bool.false_eq_true, if_false,
    Program.start_bind, Program.start_getState, Program.start_modifyState,
    Behavior.finish_bind, Behavior.bind_assoc]
  rfl

/-- What is driven in the attribute phase. -/
theorem attributeDriven_drives
    {pci : SimbusPci User Handle}
    (ben : BitVec 32)
    (framed : pci.out.frameN = .zero) :
    DrivesAddress (attributeDriven ben pci).out (attributeLanes ben) 0 :=
  driveLowBe_drivesAddress _ framed fun line => dif_pos line.isLt

theorem low_nibble (ben : BitVec 32) :
    ben &&& 0x0f = (ben.setWidth 4).setWidth 32 := by
  apply BitVec.eq_of_getLsbD_eq
  intro bit bounded
  interval_cases bit <;> simp

/-- The last lane is tested for two other bits. -/
theorem attributeLanes_eq_iff (ben : BitVec 32) :
    attributeLanes ben = ben.setWidth 4 ↔
      ben.getLsbD 3 = (ben.getLsbD 0 || ben.getLsbD 2) := by
  have bits (bit : Nat) (inside : bit < 4) :
      ben.getLsbD bit = (ben.setWidth 4).getLsbD bit := by
    rw [BitVec.getLsbD_setWidth, decide_eq_true inside, Bool.true_and]
  rw [attributeLanes, low_nibble, bits 0 (by decide), bits 2 (by decide),
    bits 3 (by decide)]
  generalize ben.setWidth 4 = nibble
  revert nibble
  decide

theorem requesterAttribute_eq_zero_iff
    {ident : Nat}
    (identBelow : ident < 32) :
    requesterAttribute ident = 0 ↔ ident = 0 := by
  revert ident
  decide

/-- The lines of the attribute phase are right if and only if these two are. -/
theorem readsAttribute_iff
    {pci : SimbusPci User Handle}
    {ident : Nat}
    (ben : BitVec 32)
    (framed : pci.out.frameN = .zero)
    (identBelow : ident < 32) :
    ReadsAttribute ident ben (attributeDriven ben pci).out ↔
      ident = 0 ∧ ben.getLsbD 3 = (ben.getLsbD 0 || ben.getLsbD 2) := by
  have drives := attributeDriven_drives ben framed
  rw [← requesterAttribute_eq_zero_iff identBelow, ← attributeLanes_eq_iff]
  constructor
  · intro reads
    let target : SimbusPci Unit Unit :=
      { SimbusPci.init 0 (fun _ => 0) () with
        seen := (attributeDriven ben pci).out }
    have carries : CarriesAddress (attributeDriven ben pci).out target.seen :=
      ⟨fun _ => rfl, fun _ _ => rfl, fun _ _ => rfl⟩
    obtain ⟨word, command⟩ := reads target carries
    obtain ⟨_, isCommand, isWord⟩ := drives.sampled carries
    exact ⟨word.symm.trans isWord, isCommand.symm.trans command⟩
  · rintro ⟨isZero, lanes⟩ target carries
    obtain ⟨_, isCommand, isWord⟩ := drives.sampled carries
    exact ⟨isWord.trans isZero.symm, isCommand.trans lanes⟩

/-- The clocks of the address phases. -/
def addressClocks (addr : BitVec 64) : Nat :=
  if (addr >>> 32).setWidth 32 = (0 : BitVec 32) then 1 else 2

theorem attributeClock_iff
    {outs : List BiSignals}
    {out : BiSignals}
    {clock ident : Nat}
    {ben : BitVec 32}
    (driven : outs[clock]? = some out) :
    (∃ out, outs[clock]? = some out ∧ ReadsAttribute ident ben out) ↔
      ReadsAttribute ident ben out := by
  rw [driven]
  simp

/-- A run of the end of the address phases begins with the attribute phase. -/
theorem endAddress_clock
    {pci final : SimbusPci User Handle}
    {ben : BitVec 32}
    {burst : Bool}
    {cycles : List ClockCycle}
    {outs : List BiSignals}
    (atEdge : pci.pciClk = .one)
    (isPcix : pci.pcixcap = .one)
    (run : ClockRun ((endAddress ben burst).start pci) cycles outs () final) :
    outs[0]? = some (attributeDriven ben pci).out := by
  rw [endAddress_pcix isPcix] at run
  obtain ⟨cycle, cycles, outs, rfl, rfl, _⟩ :=
    run.of_posedge (show (attributeDriven ben pci).pciClk = .one from atEdge)
  rfl

/-- The clock after the address phases is the attribute phase. -/
theorem addressCommand_attributeClock
    {addr : BitVec 64}
    {cmd ben : BitVec 32}
    {flag64 burst : Bool}
    {pci final : SimbusPci User Handle}
    {cycles : List ClockCycle}
    {outs : List BiSignals}
    (atEdge : pci.pciClk = .one)
    (pcixBus : ∀ cycle ∈ cycles, cycle.edge.pcixcap = .one)
    (run : ClockRun ((addressCommand addr cmd ben flag64 burst).start pci)
      cycles outs () final) :
    ∃ before : SimbusPci User Handle, before.out.frameN = .zero ∧
      outs[addressClocks addr]? = some (attributeDriven ben before).out := by
  by_cases short : (addr >>> 32).setWidth 32 = (0 : BitVec 32)
  · rw [addressCommand_single cmd ben flag64 burst short] at run
    obtain ⟨cycle, cycles, outs, rfl, rfl, later⟩ := run.of_posedge
      (show (firstAddress addr (cmd.setWidth 4) flag64 pci).pciClk = .one from
        atEdge)
    let before := (firstAddress addr (cmd.setWidth 4) flag64 pci).clocked cycle
    have isPcix : before.pcixcap = .one := by
      rw [clocked_pcixcap]
      exact pcixBus cycle List.mem_cons_self
    have framed : before.out.frameN = .zero := by
      rw [clocked_frameN]
      exact (firstAddress_drives addr _ flag64 pci).frameN
    refine ⟨before, framed, ?_⟩
    rw [addressClocks, if_pos short]
    exact endAddress_clock (clocked_pciClk _ cycle) isPcix later
  · rw [addressCommand_dual cmd ben flag64 burst short] at run
    obtain ⟨cycle, cycles, outs, rfl, rfl, dual⟩ := run.of_posedge
      (show (firstAddress addr 0xd flag64 pci).pciClk = .one from atEdge)
    let between := (firstAddress addr 0xd flag64 pci).clocked cycle
    have betweenEdge : between.pciClk = .one := clocked_pciClk _ _
    obtain ⟨second, cycles, outs, rfl, rfl, later⟩ := dual.of_posedge
      (show (secondAddress addr (cmd.setWidth 4) between).pciClk = .one from
        betweenEdge)
    let before := (secondAddress addr (cmd.setWidth 4) between).clocked second
    have isPcix : before.pcixcap = .one := by
      rw [clocked_pcixcap]
      exact pcixBus second (List.mem_cons_of_mem _ List.mem_cons_self)
    have betweenFramed : between.out.frameN = .zero := by
      rw [clocked_frameN]
      exact (firstAddress_drives addr _ flag64 pci).frameN
    have framed : before.out.frameN = .zero := by
      rw [clocked_frameN]
      exact (secondAddress_drives addr _ betweenFramed).frameN
    refine ⟨before, framed, ?_⟩
    rw [addressClocks, if_neg short]
    exact endAddress_clock (clocked_pciClk _ second) isPcix later

/--
On a PCI-X bus a target reads the attributes back from the clock after the address
phases if and only if the number of the requester is 0 and the fourth byte enable
is the first or the third one.
-/
theorem addressCommand_attribute_iff
    {addr : BitVec 64}
    {cmd ben : BitVec 32}
    {flag64 burst : Bool}
    {pci final : SimbusPci User Handle}
    {cycles : List ClockCycle}
    {outs : List BiSignals}
    (atEdge : pci.pciClk = .one)
    (identBelow : pci.ident < 32)
    (pcixBus : ∀ cycle ∈ cycles, cycle.edge.pcixcap = .one)
    (run : ClockRun ((addressCommand addr cmd ben flag64 burst).start pci)
      cycles outs () final) :
    (∃ out, outs[addressClocks addr]? = some out ∧
      ReadsAttribute pci.ident ben out) ↔
        pci.ident = 0 ∧ ben.getLsbD 3 = (ben.getLsbD 0 || ben.getLsbD 2) := by
  obtain ⟨before, framed, driven⟩ :=
    addressCommand_attributeClock atEdge pcixBus run
  exact (attributeClock_iff driven).trans
    (readsAttribute_iff ben framed identBelow)

/-! ## Two requesters -/

/-- A clock of a PCI-X bus that nothing is on. -/
def pcixClock : ClockCycle :=
  let signals (pciClk : Logic4) : SendSignals :=
    { pciClk := pciClk
      pcixcap := .one
      gntN := .zero
      idsel := .z
      resetN := none
      intN := none
      bi := BiSignals.released }
  { high := []
    low := [signals .zero]
    edge := signals .one
    isHigh := noSignals_high
    isLow := List.forall_mem_singleton.mpr rfl
    falls := List.cons_ne_nil _ _
    rises := rfl }

/-- A client on a PCI-X bus after an edge. -/
def pcixMaster (ident : Nat) : SimbusPci Unit Unit :=
  { SimbusPci.init ident (fun _ => 0) () with
    pciClk := .one
    pcixcap := .one }

theorem endAddress_pcixRun
    {pci : SimbusPci User Handle}
    (ben : BitVec 32)
    (burst : Bool)
    (atEdge : pci.pciClk = .one)
    (isPcix : pci.pcixcap = .one)
    (first second : ClockCycle) :
    ∃ outs final, ClockRun ((endAddress ben burst).start pci)
      [first, second] outs () final := by
  let driven := attributeDriven ben pci
  have drivenEdge : driven.pciClk = .one := atEdge
  let turned : SimbusPci User Handle :=
    { driven.clocked first with
      out := driveLowBe 0xf (driven.clocked first).out }
  have turnedEdge : turned.pciClk = .one := clocked_pciClk driven first
  have ended : ClockRun ((endAttribute burst).start (driven.clocked first))
      [second] [turned.out] ()
      (startData burst (turned.clocked second)) :=
    ClockRun.posedge_bind turnedEdge (.done rfl)
  rw [endAddress_pcix isPcix]
  exact ⟨_, _, ended.posedge_bind drivenEdge⟩

/-- A memory read takes an address phase, an attribute phase and a turnaround. -/
theorem addressCommand_pcixRun
    (ident : Nat)
    (ben : BitVec 32) :
    ∃ outs final, ClockRun
      ((addressCommand 0 0xf6 ben false false).start (pcixMaster ident))
      [pcixClock, pcixClock, pcixClock] outs () final := by
  rw [addressCommand_single _ ben false false rfl]
  let addressed : SimbusPci Unit Unit :=
    firstAddress 0 ((0xf6 : BitVec 32).setWidth 4) false (pcixMaster ident)
  have isPcix : (addressed.clocked pcixClock).pcixcap = .one :=
    clocked_pcixcap _ _
  obtain ⟨outs, final, ended⟩ := endAddress_pcixRun ben false
    (clocked_pciClk addressed pcixClock) isPcix pcixClock pcixClock
  have atEdge : addressed.pciClk = .one := rfl
  exact ⟨_, final, ended.posedge_bind atEdge⟩

theorem pcixClock_bus :
    ∀ cycle ∈ [pcixClock, pcixClock, pcixClock],
      cycle.edge.pcixcap = .one := by
  intro cycle isClock
  simp only [List.mem_cons, List.not_mem_nil, or_false, or_self] at isClock
  rw [isClock]
  rfl

/-- Requester 0 with all bytes disabled. -/
theorem addressCommand_attribute_disabled :
    ∃ outs final, ClockRun
      ((addressCommand 0 0xf6 0xff false false).start (pcixMaster 0))
      [pcixClock, pcixClock, pcixClock] outs () final ∧
      ∃ out, outs[addressClocks 0]? = some out ∧ ReadsAttribute 0 0xff out := by
  obtain ⟨outs, final, run⟩ := addressCommand_pcixRun 0 0xff
  have identBelow : (pcixMaster 0).ident < 32 := by decide
  have condition : (pcixMaster 0).ident = 0 ∧
      (0xff : BitVec 32).getLsbD 3 =
        ((0xff : BitVec 32).getLsbD 0 || (0xff : BitVec 32).getLsbD 2) := by
    decide
  exact ⟨outs, final, run, (addressCommand_attribute_iff rfl identBelow
    pcixClock_bus run).mpr condition⟩

/-- A target does not get the number of requester 3. -/
theorem addressCommand_attribute_lost :
    ∃ outs final, ClockRun
      ((addressCommand 0 0xf6 0 false false).start (pcixMaster 3))
      [pcixClock, pcixClock, pcixClock] outs () final ∧
      ¬ ∃ out, outs[addressClocks 0]? = some out ∧ ReadsAttribute 3 0 out := by
  obtain ⟨outs, final, run⟩ := addressCommand_pcixRun 3 0
  obtain ⟨before, framed, driven⟩ :=
    addressCommand_attributeClock rfl pcixClock_bus run
  refine ⟨outs, final, run, fun reads => ?_⟩
  obtain ⟨isZero, _⟩ := (readsAttribute_iff 0 framed (by decide)).mp
    ((attributeClock_iff driven).mp reads)
  cases isZero

end

end Simbus.Pci
