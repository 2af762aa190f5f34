import Simbus.Clocked.Returns
import Simbus.Pci.Client

/-!
# Parity after a rising edge

`__pci_next_posedge` calculates PAR for the lower half of the bus and PAR64 for
the upper half.  The lines of a half carry what the client drives on them or else
what it observes there.  For C/BE# the lower half decides by its first lane which
of the two to take, and the upper half always takes what the client drives.
-/

namespace Simbus.Pci

open FourValued Clocked

/-! ## Parity of some lines -/

/-- A line that is at neither 0 nor 1. -/
def Undefined (line : Logic4) : Prop :=
  line = .x ∨ line = .z

instance (line : Logic4) : Decidable (Undefined line) :=
  inferInstanceAs (Decidable (_ ∨ _))

/-- Whether the number of lines at 1 is odd. -/
def oddOnes (lines : List Logic4) : Bool :=
  decide (lines.count .one % 2 = 1)

/-- The even parity of some lines, or X if one of them is undefined. -/
def evenParity (lines : List Logic4) : Logic4 :=
  if ∃ line ∈ lines, Undefined line then
    .x
  else
    Logic4.ofBool (oddOnes lines)

theorem bitXor_undefined
    {line : Logic4}
    (undefined : Undefined line)
    (sum : Logic4) :
    bitXor sum line = .x := by
  rcases undefined with rfl | rfl <;> simp [bitXor]

theorem foldl_bitXor_x (lines : List Logic4) :
    lines.foldl bitXor .x = .x := by
  induction lines with
  | nil =>
      rfl
  | cons line lines inductionHypothesis =>
      exact inductionHypothesis

/-- One line more in the sum so far. -/
theorem bitXor_ofBool
    {line : Logic4}
    (defined : ¬ Undefined line)
    (sum : Bool) :
    bitXor (Logic4.ofBool sum) line =
      Logic4.ofBool (sum ^^ decide (line = .one)) := by
  cases line with
  | zero | one => cases sum <;> rfl
  | x => exact (defined (.inl rfl)).elim
  | z => exact (defined (.inr rfl)).elim

theorem oddOnes_cons (line : Logic4) (lines : List Logic4) :
    oddOnes (line :: lines) = (decide (line = .one) ^^ oddOnes lines) := by
  rw [oddOnes, oddOnes, List.count_cons]
  by_cases isOne : line = .one
  · subst isOne
    rcases Nat.mod_two_eq_zero_or_one (lines.count .one) with even | odd
    · simp [Nat.add_mod, even]
    · simp [Nat.add_mod, odd]
  · simp [isOne]

/-- The loop of `bit_xor` from some sum. -/
theorem foldl_bitXor
    (lines : List Logic4)
    (sum : Bool) :
    lines.foldl bitXor (Logic4.ofBool sum) =
      if ∃ line ∈ lines, Undefined line then
        .x
      else
        Logic4.ofBool (sum ^^ oddOnes lines) := by
  induction lines generalizing sum with
  | nil =>
      simp [oddOnes]
  | cons line lines inductionHypothesis =>
      rw [List.foldl_cons]
      by_cases undefined : Undefined line
      · have some : ∃ other ∈ line :: lines, Undefined other :=
          ⟨line, List.mem_cons_self, undefined⟩
        rw [bitXor_undefined undefined, foldl_bitXor_x, if_pos some]
      · rw [bitXor_ofBool undefined, inductionHypothesis, oddOnes_cons,
          Bool.xor_assoc]
        simp only [List.exists_mem_cons_iff, undefined, false_or]

/-- The parity of the client is the even parity. -/
theorem parityOf_eq (lines : List Logic4) :
    parityOf lines = evenParity lines := by
  have sum := foldl_bitXor lines false
  rw [Bool.false_xor] at sum
  exact sum

/-- Lines at 0 have parity 0. -/
theorem evenParity_of_zeros
    {lines : List Logic4}
    (zeros : ∀ line ∈ lines, line = .zero) :
    evenParity lines = .zero := by
  have defined : ¬ ∃ line ∈ lines, Undefined line := by
    rintro ⟨line, member, undefined⟩
    rw [zeros line member] at undefined
    rcases undefined with isX | isZ
    · cases isX
    · cases isZ
  have noOne : lines.count .one = 0 := by
    apply List.count_eq_zero_of_not_mem
    intro member
    cases zeros .one member
  rw [evenParity, if_neg defined, oddOnes, noOne]
  rfl

/-! ## The lines of a half -/

/-- What a client drives on a line, or else what it observes there. -/
def onBus (own seen : Logic4) : Logic4 :=
  if own = .z then seen else own

/-- One half of the bus: 32 AD lines and the four lanes of their bytes. -/
structure BusHalf where
  ownAd : Fin 32 → Logic4
  seenAd : Fin 32 → Logic4
  ownBe : Fin 4 → Logic4
  seenBe : Fin 4 → Logic4

namespace BusHalf

variable (half : BusHalf)

def ad (line : Fin 32) : Logic4 :=
  onBus (half.ownAd line) (half.seenAd line)

def be (lane : Fin 4) : Logic4 :=
  onBus (half.ownBe lane) (half.seenBe lane)

/-- No AD line is driven. -/
def Undriven : Prop :=
  ∀ line, half.ownAd line = .z

instance : Decidable half.Undriven :=
  inferInstanceAs (Decidable (∀ _, _))

/-- Z for an undriven half, and else the parity of the 36 lines. -/
def parity : Logic4 :=
  if half.Undriven then
    .z
  else
    evenParity ((List.finRange 32).map half.ad ++ (List.finRange 4).map half.be)

/-- The parity that is calculated with some byte enables. -/
def parityWith (taken : Fin 4 → Logic4) : Logic4 :=
  if half.Undriven then
    .z
  else
    evenParity ((List.finRange 32).map half.ownAd ++ (List.finRange 4).map taken)

/-- Four lanes with the parity of four others. -/
def SameParity (taken lanes : Fin 4 → Logic4) : Prop :=
  ((∃ lane, Undefined (taken lane)) ↔ ∃ lane, Undefined (lanes lane)) ∧
    ((∀ lane, ¬ Undefined (lanes lane)) →
      oddOnes ((List.finRange 4).map taken) =
        oddOnes ((List.finRange 4).map lanes))

/--
The half is not driven, or an AD line is undefined, or all AD lines are driven and
the byte enables that are taken have the parity of those on the bus, or an AD line
is left to others and a byte enable on the bus is undefined.
-/
def Fits (taken : Fin 4 → Logic4) : Prop :=
  half.Undriven ∨ (∃ line, Undefined (half.ad line)) ∨
    (∀ line, half.ownAd line ≠ .z) ∧ SameParity taken half.be ∨
      (∃ line, half.ownAd line = .z) ∧ ∃ lane, Undefined (half.be lane)

end BusHalf

/-- The 36 lines of two bundles are defined if those of both are. -/
theorem undefined_append_iff
    (ad : Fin 32 → Logic4)
    (be : Fin 4 → Logic4) :
    (∃ line ∈ (List.finRange 32).map ad ++ (List.finRange 4).map be,
        Undefined line) ↔
      (∃ line, Undefined (ad line)) ∨ ∃ lane, Undefined (be lane) := by
  constructor
  · rintro ⟨_, member, undefined⟩
    rcases List.mem_append.mp member with inAd | inBe
    · obtain ⟨line, _, rfl⟩ := List.mem_map.mp inAd
      exact .inl ⟨line, undefined⟩
    · obtain ⟨lane, _, rfl⟩ := List.mem_map.mp inBe
      exact .inr ⟨lane, undefined⟩
  · rintro (⟨line, undefined⟩ | ⟨lane, undefined⟩)
    · exact ⟨_, List.mem_append_left _
        (List.mem_map_of_mem (List.mem_finRange line)), undefined⟩
    · exact ⟨_, List.mem_append_right _
        (List.mem_map_of_mem (List.mem_finRange lane)), undefined⟩

theorem oddOnes_append (first later : List Logic4) :
    oddOnes (first ++ later) = (oddOnes first ^^ oddOnes later) := by
  induction first with
  | nil =>
      simp [oddOnes]
  | cons line first inductionHypothesis =>
      rw [List.cons_append, oddOnes_cons, oddOnes_cons, inductionHypothesis,
        Bool.xor_assoc]

theorem ofBool_ne_x (level : Bool) : Logic4.ofBool level ≠ .x := by
  cases level <;> nofun

theorem ofBool_inj {level other : Bool}
    (same : Logic4.ofBool level = Logic4.ofBool other) :
    level = other := by
  revert same
  cases level <;> cases other <;> simp [Logic4.ofBool]

/-- With the same AD lines the byte enables decide. -/
theorem evenParity_append_iff
    {ad : Fin 32 → Logic4}
    (defined : ∀ line, ¬ Undefined (ad line))
    (taken lanes : Fin 4 → Logic4) :
    evenParity ((List.finRange 32).map ad ++ (List.finRange 4).map taken) =
        evenParity ((List.finRange 32).map ad ++ (List.finRange 4).map lanes) ↔
      BusHalf.SameParity taken lanes := by
  have noAd : ¬ ∃ line, Undefined (ad line) :=
    fun ⟨line, undefined⟩ => defined line undefined
  unfold evenParity
  simp only [undefined_append_iff, noAd, false_or, oddOnes_append]
  by_cases takenUndefined : ∃ lane, Undefined (taken lane)
  · by_cases lanesUndefined : ∃ lane, Undefined (lanes lane)
    · rw [if_pos takenUndefined, if_pos lanesUndefined]
      refine ⟨fun _ => ⟨⟨fun _ => lanesUndefined, fun _ => takenUndefined⟩, ?_⟩,
        fun _ => rfl⟩
      intro allDefined
      obtain ⟨lane, undefined⟩ := lanesUndefined
      exact (allDefined lane undefined).elim
    · rw [if_pos takenUndefined, if_neg lanesUndefined]
      constructor
      · intro same
        exact (ofBool_ne_x _ same.symm).elim
      · intro same
        exact (lanesUndefined (same.1.mp takenUndefined)).elim
  · by_cases lanesUndefined : ∃ lane, Undefined (lanes lane)
    · rw [if_neg takenUndefined, if_pos lanesUndefined]
      constructor
      · intro same
        exact (ofBool_ne_x _ same).elim
      · intro same
        exact (takenUndefined (same.1.mpr lanesUndefined)).elim
    · rw [if_neg takenUndefined, if_neg lanesUndefined]
      constructor
      · intro same
        refine ⟨⟨fun some => (takenUndefined some).elim,
          fun some => (lanesUndefined some).elim⟩, fun _ => ?_⟩
        exact Bool.xor_right_inj.mp (ofBool_inj same)
      · intro same
        rw [same.2 fun lane undefined => lanesUndefined ⟨lane, undefined⟩]

namespace BusHalf

variable (half : BusHalf)

/-- A line that a client drives is what it drives. -/
theorem ad_driven
    {line : Fin 32}
    (driven : half.ownAd line ≠ .z) :
    half.ad line = half.ownAd line :=
  if_neg driven

/-- The parity that is calculated is that of the bus where the half fits. -/
theorem parityWith_eq_iff (taken : Fin 4 → Logic4) :
    half.parityWith taken = half.parity ↔ half.Fits taken := by
  unfold parityWith parity Fits
  by_cases undriven : half.Undriven
  · simp [undriven]
  rw [if_neg undriven, if_neg undriven]
  by_cases adUndefined : ∃ line, Undefined (half.ad line)
  · -- An undefined line of the bus is undefined as the client drives it.
    have ownUndefined : ∃ line, Undefined (half.ownAd line) := by
      obtain ⟨line, undefined⟩ := adUndefined
      by_cases released : half.ownAd line = .z
      · exact ⟨line, .inr released⟩
      · exact ⟨line, half.ad_driven released ▸ undefined⟩
    have first : evenParity ((List.finRange 32).map half.ownAd ++
        (List.finRange 4).map taken) = .x :=
      if_pos ((undefined_append_iff _ _).mpr (.inl ownUndefined))
    have second : evenParity ((List.finRange 32).map half.ad ++
        (List.finRange 4).map half.be) = .x :=
      if_pos ((undefined_append_iff _ _).mpr (.inl adUndefined))
    rw [first, second]
    exact ⟨fun _ => .inr (.inl adUndefined), fun _ => rfl⟩
  have adDefined : ∀ line, ¬ Undefined (half.ad line) :=
    fun line undefined => adUndefined ⟨line, undefined⟩
  by_cases allDriven : ∀ line, half.ownAd line ≠ .z
  · have sameAd : half.ad = half.ownAd :=
      funext fun line => half.ad_driven (allDriven line)
    have noRelease : ¬ ∃ line, half.ownAd line = .z :=
      fun ⟨line, released⟩ => allDriven line released
    rw [← sameAd, evenParity_append_iff adDefined]
    simp only [undriven, adUndefined, false_or]
    constructor
    · intro same
      exact .inl ⟨sameAd ▸ allDriven, same⟩
    · rintro (⟨_, same⟩ | ⟨⟨line, released⟩, _⟩)
      · exact same
      · exact (noRelease ⟨line, by rw [← sameAd]; exact released⟩).elim
  · have someReleased : ∃ line, half.ownAd line = .z := by
      obtain ⟨line, released⟩ := not_forall.mp allDriven
      exact ⟨line, not_not.mp released⟩
    obtain ⟨line, released⟩ := someReleased
    have first : evenParity ((List.finRange 32).map half.ownAd ++
        (List.finRange 4).map taken) = .x :=
      if_pos ((undefined_append_iff _ _).mpr (.inl ⟨line, .inr released⟩))
    rw [first]
    simp only [undriven, adUndefined, allDriven, false_and, false_or]
    unfold evenParity
    simp only [undefined_append_iff, adUndefined, false_or]
    constructor
    · intro isX
      split at isX
      · rename_i undefined
        exact ⟨⟨line, released⟩, undefined⟩
      · exact (ofBool_ne_x _ isX.symm).elim
    · rintro ⟨_, undefined⟩
      exact (if_pos undefined).symm

end BusHalf

/-! ## A client after an edge -/

section

variable {User Handle : Type}

namespace SimbusPci

/-- The lower half of the bus of a client. -/
def lowHalf (pci : SimbusPci User Handle) : BusHalf where
  ownAd := fun line => pci.out.ad (lowLine line)
  seenAd := fun line => pci.seen.ad (lowLine line)
  ownBe := fun lane => pci.out.cBe (lowLane lane)
  seenBe := fun lane => pci.seen.cBe (lowLane lane)

/-- The upper half. -/
def highHalf (pci : SimbusPci User Handle) : BusHalf where
  ownAd := fun line => pci.out.ad (highLine line)
  seenAd := fun line => pci.seen.ad (highLine line)
  ownBe := fun lane => pci.out.cBe (highLane lane)
  seenBe := fun lane => pci.seen.cBe (highLane lane)

end SimbusPci

/-- The byte enables that PAR is calculated with. -/
def BusHalf.takenLow (half : BusHalf) (lane : Fin 4) : Logic4 :=
  if half.ownBe 0 = .z then half.seenBe lane else half.ownBe lane

/-- PAR and PAR64 are the parities of the two halves. -/
structure ParityRight (pci : SimbusPci User Handle) : Prop where
  par : pci.out.par = pci.lowHalf.parity
  par64 : pci.out.par64 = pci.highHalf.parity

/-- Parity does not change what it is calculated from. -/
@[simp]
theorem calculateParity_lowHalf (pci : SimbusPci User Handle) :
    (calculateParity pci).lowHalf = pci.lowHalf :=
  rfl

@[simp]
theorem calculateParity_highHalf (pci : SimbusPci User Handle) :
    (calculateParity pci).highHalf = pci.highHalf :=
  rfl

theorem map_eq_z_iff (lines : Fin 32 → Logic4) :
    (∀ line ∈ (List.finRange 32).map lines, line = .z) ↔
      ∀ line, lines line = .z := by
  rw [List.forall_mem_map]
  exact ⟨fun all line => all line (List.mem_finRange line),
    fun all line _ => all line⟩

theorem calculateParity_par (pci : SimbusPci User Handle) :
    (calculateParity pci).out.par =
      pci.lowHalf.parityWith pci.lowHalf.takenLow := by
  simp only [calculateParity, parityOf_eq, map_eq_z_iff]
  rfl

theorem calculateParity_par64 (pci : SimbusPci User Handle) :
    (calculateParity pci).out.par64 =
      pci.highHalf.parityWith pci.highHalf.ownBe := by
  simp only [calculateParity, parityOf_eq, map_eq_z_iff]
  rfl

/-- Parity is what an edge ends with. -/
theorem pciNextPosedge_ends
    {replies : List Reply}
    {pci final : SimbusPci User Handle}
    (returned : (pciNextPosedge.start pci).run replies =
      .finished () final []) :
    ∃ before, final = calculateParity before := by
  obtain ⟨_, returns⟩ := returns_of_run returned
  obtain ⟨_, _, _, _, _, _, _, _, second⟩ := returns.split
  obtain ⟨_, _, _, before, _, _, _, _, last⟩ := second.split
  have ran := last.run
  rw [Program.start_modifyState, Behavior.run_finish, Outcome.finished.injEq]
    at ran
  exact ⟨before, ran.2.1.symm⟩

/--
After every `__pci_next_posedge` the parity lines are right if and only if both
halves of the bus fit: the lower one with the byte enables that are chosen by its
first lane, the upper one with those that the client drives itself.
-/
theorem pciNextPosedge_parity_iff
    {replies : List Reply}
    {pci final : SimbusPci User Handle}
    (returned : (pciNextPosedge.start pci).run replies =
      .finished () final []) :
    ParityRight final ↔
      final.lowHalf.Fits final.lowHalf.takenLow ∧
        final.highHalf.Fits final.highHalf.ownBe := by
  obtain ⟨before, rfl⟩ := pciNextPosedge_ends returned
  rw [← BusHalf.parityWith_eq_iff, ← BusHalf.parityWith_eq_iff,
    calculateParity_lowHalf, calculateParity_highHalf, ← calculateParity_par,
    ← calculateParity_par64, ← calculateParity_lowHalf,
    ← calculateParity_highHalf]
  exact ⟨fun right => ⟨right.par, right.par64⟩, fun both => ⟨both.1, both.2⟩⟩

end

/-- A target that drives all AD lines to 0 and leaves C/BE# to its master. -/
def readingTarget : SimbusPci Unit Unit :=
  let pci := SimbusPci.init 3 (fun _ => 0) ()
  { pci with
    pciClk := .zero
    out :=
      { pci.out with
        devselN := .zero, ack64N := .zero, trdyN := .zero
        ad := fun _ => .zero } }

/-- A rising edge at which its master enables all bytes. -/
def readingEdge : SendSignals where
  pciClk := .one
  pcixcap := .zero
  gntN := .one
  idsel := .z
  resetN := none
  intN := none
  bi := { BiSignals.released with cBe := fun _ => .zero }

/-- The target after the edge. -/
def readTarget : SimbusPci Unit Unit :=
  calculateParity (readingTarget.sample readingEdge)

theorem readingTarget_returns :
    (pciNextPosedge.start readingTarget).run [.until readingEdge] =
      .finished () readTarget [] :=
  rfl

theorem readingTarget_parity :
    ParityRight readTarget ↔
      readTarget.lowHalf.Fits readTarget.lowHalf.takenLow ∧
        readTarget.highHalf.Fits readTarget.highHalf.ownBe :=
  pciNextPosedge_parity_iff readingTarget_returns

/-- Its PAR64 is X although all 36 lines of the upper half are at 0. -/
theorem readingTarget_par64 :
    (pciNextPosedge.start readingTarget).run [.until readingEdge] =
        .finished () readTarget [] ∧
      readTarget.out.par64 = .x ∧ readTarget.highHalf.parity = .zero ∧
        ¬ ParityRight readTarget := by
  have sameHalf : readTarget.highHalf =
      (readingTarget.sample readingEdge).highHalf := calculateParity_highHalf _
  have driven : ¬ (readingTarget.sample readingEdge).highHalf.Undriven :=
    fun none => nomatch none 0
  have isX : readTarget.out.par64 = .x := by
    rw [readTarget, calculateParity_par64, BusHalf.parityWith, if_neg driven,
      evenParity, if_pos]
    exact (undefined_append_iff _ _).mpr (.inr ⟨0, .inr rfl⟩)
  have isZero : readTarget.highHalf.parity = .zero := by
    rw [sameHalf, BusHalf.parity, if_neg driven]
    refine evenParity_of_zeros fun line member => ?_
    rcases List.mem_append.mp member with inAd | inBe
    · obtain ⟨_, _, rfl⟩ := List.mem_map.mp inAd
      rfl
    · obtain ⟨_, _, rfl⟩ := List.mem_map.mp inBe
      rfl
  refine ⟨rfl, isX, isZero, fun right => ?_⟩
  have same := right.par64
  rw [isX, isZero] at same
  cases same

end Simbus.Pci
