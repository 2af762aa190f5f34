import Simbus.Pci.Etiquette
import Simbus.Pci.Master

/-!
# A libsimbus client between two rising edges

A client changes what it shows at rising edges, where the clock is high for
two phases and low for two.  This module follows the exchanges from one edge to
the next, for `__pci_next_posedge` and for the loops of `simbus_pci_wait`.
-/

namespace Simbus.Pci

open FourValued Clocked PciProtocol

/-- What the etiquette looks at in a client. -/
structure Stance where
  drive : Drive
  pciClk : Logic4
  pcixcap : Logic4
  pciGntN : Logic4
  frameN : Logic4
  irdyN : Logic4

/-- An assertion on the last exchange and on the client. -/
abbrev Assertion : Type := Manners → Stance → Prop

/-- The client has seen what the server sent in the last exchange. -/
structure Synced (manners : Manners) (stance : Stance) : Prop where
  pciClk : stance.pciClk = clkVal manners.phase
  pcixcap : stance.pcixcap = .zero
  pciGntN : stance.pciGntN = manners.gntN
  frameN : stance.frameN = manners.frameN
  irdyN : stance.irdyN = manners.irdyN

/-- Being in step does not depend on the outputs. -/
theorem Synced.congr
    {manners : Manners}
    {stance : Stance}
    {drive : Drive}
    (synced : Synced manners stance) :
    Synced manners { stance with drive := drive } :=
  ⟨synced.pciClk, synced.pcixcap, synced.pciGntN, synced.frameN,
    synced.irdyN⟩

/-- The client is at a rising edge. -/
structure AtEdge (manners : Manners) (stance : Stance) : Prop where
  synced : Synced manners stance
  phase : manners.phase = 0

section

variable {User Handle Value Result : Type}

/-- What the etiquette looks at in a client of the library. -/
def SimbusPci.stance (pci : SimbusPci User Handle) : Stance where
  drive := driveOf pci.ready
  pciClk := pci.pciClk
  pcixcap := pci.pcixcap
  pciGntN := pci.pciGntN
  frameN := pci.seen.frameN
  irdyN := pci.seen.irdyN

/-- The etiquette of a client of the library. -/
abbrev libraryEtiquette
    (User Handle : Type) : Monitor (SimbusPci User Handle) Reply :=
  etiquette SimbusPci.ready

/-- The call keeps to the etiquette from `pre` on and ends in `post`. -/
def Ensures
    (pre : Assertion)
    (call : Call User Handle Value)
    (post : Value → Assertion) : Prop :=
  Triple (libraryEtiquette User Handle)
    (fun manners pci => pre manners pci.stance) call
    fun value manners pci => post value manners pci.stance

variable {pre : Assertion}
variable {post : Value → Assertion}

namespace Ensures

theorem pure
    {value : Value}
    (holds : ∀ manners stance,
      pre manners stance → post value manners stance) :
    Ensures pre (Pure.pure value : Call User Handle Value) post :=
  Triple.pure fun manners pci => holds manners pci.stance

theorem bind
    {post : Result → Assertion}
    (middle : Value → Assertion)
    {call : Call User Handle Value}
    {next : Value → Call User Handle Result}
    (first : Ensures pre call middle)
    (second : ∀ value, Ensures (middle value) (next value) post) :
    Ensures pre (call >>= next) post :=
  Triple.bind first second

theorem weaken
    {stronger : Assertion}
    {weaker : Value → Assertion}
    {call : Call User Handle Value}
    (ensures : Ensures pre call post)
    (before : ∀ manners stance,
      stronger manners stance → pre manners stance)
    (after : ∀ value manners stance,
      post value manners stance → weaker value manners stance) :
    Ensures stronger call weaker :=
  Triple.weaken ensures (fun manners pci => before manners pci.stance)
    fun value manners pci => after value manners pci.stance

/-- What follows may use what is known of the state that is read. -/
theorem getState
    {next : SimbusPci User Handle → Call User Handle Value}
    (reads : ∀ pci : SimbusPci User Handle,
      Ensures
        (fun manners stance => pre manners stance ∧ stance = pci.stance)
        (next pci) post) :
    Ensures pre (Program.getState >>= next) post := by
  apply Triple.getState
  intro pci
  refine Triple.weaken (reads pci) ?_ fun _ _ _ after => after
  rintro manners _ ⟨holds, rfl⟩
  exact ⟨holds, rfl⟩

theorem modifyState
    {change : SimbusPci User Handle → SimbusPci User Handle}
    {post : Unit → Assertion}
    (holds : ∀ manners pci,
      pre manners pci.stance → post () manners (change pci).stance) :
    Ensures pre (Program.modifyState change) post :=
  Triple.modifyState holds

theorem assert
    {condition : SimbusPci User Handle → Bool}
    {post : Unit → Assertion}
    (holds : ∀ manners stance,
      pre manners stance → post () manners stance) :
    Ensures pre (Program.assert condition) post :=
  Triple.assert fun manners pci before _ =>
    holds manners pci.stance before

theorem abort :
    Ensures pre (Program.abort : Call User Handle Value) post :=
  Triple.abort

theorem ite
    {condition : Prop}
    [Decidable condition]
    {yes no : Call User Handle Value}
    (first : condition → Ensures pre yes post)
    (second : ¬ condition → Ensures pre no post) :
    Ensures pre (if condition then yes else no) post :=
  Triple.ite first second

/-- A loop keeps an invariant on its locals. -/
theorem loop
    {Local : Type}
    {body : Local → Call User Handle (Local ⊕ Value)}
    (invariant : Local → Assertion)
    (turn : ∀ current,
      Ensures (invariant current) (body current)
        fun outcome manners stance =>
          match outcome with
          | .inl next => invariant next manners stance
          | .inr result => post result manners stance)
    (current : Local) :
    Ensures (invariant current) (Program.loop body current) post := by
  let holds (current : Local)
      (manners : (libraryEtiquette User Handle).Phase)
      (pci : SimbusPci User Handle) : Prop :=
    invariant current manners pci.stance
  refine Triple.loop holds (fun current => ?_) current
  refine Triple.weaken (turn current) (fun _ _ before => before) ?_
  intro outcome manners pci after
  cases outcome <;> exact after

/-- A state that satisfies no precondition needs no proof. -/
theorem impossible
    {call : Call User Handle Value}
    (never : ∀ manners stance, ¬ pre manners stance) :
    Ensures pre call post :=
  fun manners pci holds => (never manners pci.stance holds).elim

end Ensures

/-! ## Calls that maintain an assertion -/

/-- The assertion holds again when the call is done. -/
def Maintains
    (assertion : Assertion)
    (call : Call User Handle Value) : Prop :=
  Ensures assertion call fun _ => assertion

namespace Maintains

variable {assertion : Assertion}

theorem pure
    (value : Value) :
    Maintains assertion (Pure.pure value : Call User Handle Value) :=
  Keeps.pure value

theorem bind
    {call : Call User Handle Value}
    {next : Value → Call User Handle Result}
    (first : Maintains assertion call)
    (second : ∀ value, Maintains assertion (next value)) :
    Maintains assertion (call >>= next) :=
  Keeps.bind first second

theorem getState
    {next : SimbusPci User Handle → Call User Handle Value}
    (reads : ∀ pci : SimbusPci User Handle, ∀ manners,
      assertion manners pci.stance → Maintains assertion (next pci)) :
    Maintains assertion (Program.getState >>= next) :=
  Keeps.getState reads

theorem modifyState
    {change : SimbusPci User Handle → SimbusPci User Handle}
    (same : ∀ manners pci, assertion manners pci.stance →
      assertion manners (change pci).stance) :
    Maintains assertion (Program.modifyState change) :=
  Ensures.modifyState same

/-- A change of something the etiquette does not look at. -/
theorem unseen
    {change : SimbusPci User Handle → SimbusPci User Handle}
    (same : ∀ pci, (change pci).stance = pci.stance) :
    Maintains assertion (Program.modifyState change) :=
  modifyState fun manners pci holds => by
    rw [same pci]
    exact holds

theorem assert
    (condition : SimbusPci User Handle → Bool) :
    Maintains assertion (Program.assert condition) :=
  Ensures.assert fun _ _ holds => holds

theorem abort :
    Maintains assertion (Program.abort : Call User Handle Value) :=
  Ensures.abort

theorem ite
    {condition : Prop}
    [Decidable condition]
    {yes no : Call User Handle Value}
    (first : condition → Maintains assertion yes)
    (second : ¬ condition → Maintains assertion no) :
    Maintains assertion (if condition then yes else no) :=
  Triple.ite first second

/-- Only PCI-X would do this. -/
theorem unlessPcix
    {pci : SimbusPci User Handle}
    {yes no : Call User Handle Value}
    (conventional : pcixMode pci = false)
    (otherwise : Maintains assertion no) :
    Maintains assertion (if pcixMode pci then yes else no) := by
  simp only [conventional, Bool.false_eq_true, ↓reduceIte]
  exact otherwise

theorem loop
    {Local : Type}
    {body : Local → Call User Handle (Local ⊕ Value)}
    (turn : ∀ current, Maintains assertion (body current))
    (current : Local) :
    Maintains assertion (Program.loop body current) :=
  Keeps.loop turn current

theorem whileDo
    {condition : SimbusPci User Handle → Bool}
    {body : Call User Handle Unit}
    (turn : Maintains assertion body) :
    Maintains assertion (Program.whileDo condition body) :=
  Keeps.whileDo turn

end Maintains

/-- At an edge of a conventional bus there is no PCI-X. -/
theorem AtEdge.conventional
    {manners : Manners}
    {pci : SimbusPci User Handle}
    (atEdge : AtEdge manners pci.stance) :
    pcixMode pci = false := by
  have pcixcap := atEdge.synced.pcixcap
  change pci.pcixcap = .zero at pcixcap
  simp [pcixMode, pcixcap]

/-! ## One exchange -/

/-- The client shows something allowed, and sees what the server sends. -/
theorem sendReadyCommand_ensures
    {post : Int → Assertion}
    (allowed : ∀ manners stance,
      pre manners stance → manners.Allows stance.drive)
    (after : ∀ manners stance next sampled,
      pre manners stance →
      Synced next sampled →
      next.phase = manners.phase + 1 →
      next.shown = stance.drive →
      sampled.drive = stance.drive →
      post 0 next sampled) :
    Ensures pre
      (sendReadyCommand : Call User Handle Int) post := by
  intro manners pci before
  apply meets_await.mpr
  refine ⟨allowed manners pci.stance before, ?_⟩
  rintro _ _ ⟨signals, rfl, conventional, rfl⟩
  apply meets_finish.mpr
  refine after manners pci.stance _ _ before ?_ rfl rfl rfl
  exact
    { pciClk := conventional.pciClk
      pcixcap := conventional.pcixcap
      pciGntN := rfl
      frameN := rfl
      irdyN := rfl }

/-! ## From one edge to the next -/

/-- The clock is high, or has just fallen; `level` is the clock before. -/
structure FirstHalf
    (level : Logic4)
    (drive : Drive)
    (manners : Manners)
    (stance : Stance) : Prop where
  shows : stance.drive = drive
  allows : manners.Allows drive
  clock :
    (manners.phase = 0 ∧ stance.pciClk = level) ∨
      (manners.phase = 1 ∧ Synced manners stance) ∨
      (manners.phase = 2 ∧ Synced manners stance)

/-- The clock is low, or has just risen. -/
structure SecondHalf
    (drive : Drive)
    (manners : Manners)
    (stance : Stance) : Prop where
  shows : stance.drive = drive
  shown : manners.shown = drive
  synced : Synced manners stance
  clock : manners.phase = 2 ∨ manners.phase = 3 ∨ manners.phase = 0

/-- The edge that ends a clock in which the client has shown some outputs. -/
structure NextEdge
    (drive : Drive)
    (manners : Manners)
    (stance : Stance) : Prop where
  atEdge : AtEdge manners stance
  shows : stance.drive = drive
  shown : manners.shown = drive

variable {level : Logic4}
variable {drive : Drive}
variable {manners : Manners}
variable {stance : Stance}

/-- After the high phases the clock has fallen. -/
theorem FirstHalf.fallen
    (condition : Logic4 → Bool)
    (half : FirstHalf level drive manners stance)
    (goesOn : condition level = true)
    (goesOnHigh : condition .one = true)
    (ends : condition stance.pciClk = false) :
    SecondHalf drive manners stance := by
  rcases half.clock with ⟨_, clock⟩ | ⟨phase, synced⟩ | ⟨phase, synced⟩
  · rw [clock, goesOn] at ends
    cases ends
  · rw [synced.pciClk, phase] at ends
    change condition .one = false at ends
    rw [goesOnHigh] at ends
    cases ends
  · have allows := half.allows
    rw [Manners.Allows, phase] at allows
    exact
      { shows := half.shows
        shown := allows.symm
        synced := synced
        clock := .inl phase }

/-- While the clock is low it has not risen. -/
theorem SecondHalf.risen
    (condition : Logic4 → Bool)
    (half : SecondHalf drive manners stance)
    (goesOn : condition .zero = true)
    (ends : condition stance.pciClk = false) :
    NextEdge drive manners stance := by
  rcases half.clock with phase | phase | phase
  · rw [half.synced.pciClk, phase] at ends
    change condition .zero = false at ends
    rw [goesOn] at ends
    cases ends
  · rw [half.synced.pciClk, phase] at ends
    change condition .zero = false at ends
    rw [goesOn] at ends
    cases ends
  · exact
      { atEdge := ⟨half.synced, phase⟩
        shows := half.shows
        shown := half.shown }

/-- An exchange while the clock is high. -/
theorem sendReadyCommand_firstHalf
    (level : Logic4)
    (drive : Drive)
    (condition : Logic4 → Bool)
    (endsLow : condition .zero = false) :
    Ensures
      (fun manners stance =>
        FirstHalf level drive manners stance ∧
          condition stance.pciClk = true)
      (sendReadyCommand : Call User Handle Int)
      fun rc manners stance =>
        rc = 0 ∧ FirstHalf level drive manners stance := by
  apply sendReadyCommand_ensures
  · rintro manners stance ⟨half, _⟩
    exact half.shows ▸ half.allows
  · rintro manners stance next sampled ⟨half, goesOn⟩ synced phase shown
      sameDrive
    have shownDrive : next.shown = drive := shown.trans half.shows
    refine ⟨rfl, sameDrive.trans half.shows, ?_, ?_⟩
    · rcases half.clock with ⟨before, _⟩ | ⟨before, _⟩ | ⟨before, _⟩ <;>
        simp [Manners.Allows, phase, before, shownDrive]
    · rcases half.clock with ⟨before, _⟩ | ⟨before, _⟩ | ⟨before, old⟩
      · exact .inr (.inl ⟨by rw [phase, before]; rfl, synced⟩)
      · exact .inr (.inr ⟨by rw [phase, before]; rfl, synced⟩)
      · -- After the falling edge there is no further exchange.
        rw [old.pciClk, before] at goesOn
        change condition .zero = true at goesOn
        rw [endsLow] at goesOn
        cases goesOn

/-- An exchange while the clock is low. -/
theorem sendReadyCommand_secondHalf
    (drive : Drive)
    (condition : Logic4 → Bool)
    (endsHigh : condition .one = false) :
    Ensures
      (fun manners stance =>
        SecondHalf drive manners stance ∧
          condition stance.pciClk = true)
      (sendReadyCommand : Call User Handle Int)
      fun rc manners stance =>
        rc = 0 ∧ SecondHalf drive manners stance := by
  have notRisen : ∀ manners stance,
      SecondHalf drive manners stance →
      condition stance.pciClk = true →
      manners.phase = 2 ∨ manners.phase = 3 := by
    intro manners stance half goesOn
    rcases half.clock with phase | phase | phase
    · exact .inl phase
    · exact .inr phase
    · rw [half.synced.pciClk, phase] at goesOn
      change condition .one = true at goesOn
      rw [endsHigh] at goesOn
      cases goesOn
  apply sendReadyCommand_ensures
  · rintro manners stance ⟨half, goesOn⟩
    rcases notRisen manners stance half goesOn with phase | phase <;>
      simp [Manners.Allows, phase, half.shows, half.shown]
  · rintro manners stance next sampled ⟨half, goesOn⟩ synced phase shown
      sameDrive
    refine ⟨rfl, sameDrive.trans half.shows, shown.trans half.shows,
      synced, ?_⟩
    rcases notRisen manners stance half goesOn with before | before
    · exact .inr (.inl (by rw [phase, before]; rfl))
    · exact .inr (.inr (by rw [phase, before]; rfl))

/-- A loop of exchanges that keeps its data in the state. -/
theorem whileDo_sendReady_ensures
    (condition : Logic4 → Bool)
    (invariant : Assertion)
    (turn :
      Ensures
        (fun manners stance =>
          invariant manners stance ∧ condition stance.pciClk = true)
        (sendReadyCommand : Call User Handle Int)
        fun rc manners stance => rc = 0 ∧ invariant manners stance) :
    Ensures invariant
      (Program.whileDo (fun pci => condition pci.pciClk) do
        let _ ← sendReadyCommand :
        Call User Handle Unit)
      fun _ manners stance =>
        invariant manners stance ∧ condition stance.pciClk = false := by
  apply Triple.whileDo
  apply Triple.bind turn
  intro rc
  apply Triple.pure
  intro manners pci after
  exact after.2

/-- The loop of `simbus_pci_wait` on one level of the clock. -/
theorem exchangeWhileClk_ensures
    (condition : Logic4 → Bool)
    (invariant : Assertion)
    (turn :
      Ensures
        (fun manners stance =>
          invariant manners stance ∧ condition stance.pciClk = true)
        (sendReadyCommand : Call User Handle Int)
        fun rc manners stance => rc = 0 ∧ invariant manners stance) :
    Ensures invariant
      (exchangeWhileClk condition 0 : Call User Handle Int)
      fun rc manners stance =>
        rc = 0 ∧ invariant manners stance ∧
          condition stance.pciClk = false := by
  have loops : ∀ rc : Int,
      Ensures (fun manners stance => rc = 0 ∧ invariant manners stance)
        (exchangeWhileClk condition rc : Call User Handle Int)
        fun rc manners stance =>
          rc = 0 ∧ invariant manners stance ∧
            condition stance.pciClk = false := by
    intro rc
    refine Ensures.loop
      (fun rc manners stance => rc = 0 ∧ invariant manners stance) ?_ rc
    intro rc
    apply Triple.getState
    intro pci
    apply Triple.ite
    · rintro ⟨goesOn, _⟩
      refine Triple.bind (Triple.weaken turn ?_ fun _ _ _ after => after)
        fun rc => Triple.pure fun _ _ after => after
      rintro manners _ ⟨⟨_, holds⟩, rfl⟩
      exact ⟨holds, goesOn⟩
    · intro stops
      apply Triple.pure
      rintro manners _ ⟨⟨rfl, holds⟩, rfl⟩
      refine ⟨rfl, holds, ?_⟩
      by_contra goesOn
      rw [Bool.not_eq_false] at goesOn
      exact stops ⟨goesOn, le_refl 0⟩
  exact (loops 0).weaken (fun _ _ holds => ⟨rfl, holds⟩)
    fun _ _ _ after => after

/-- At an edge the high phases begin. -/
theorem AtEdge.firstHalf
    (atEdge : AtEdge manners stance)
    (next : manners.Next stance.drive) :
    FirstHalf .one stance.drive manners stance where
  shows := rfl
  allows := by
    rw [Manners.Allows, if_pos atEdge.phase]
    exact next
  clock := .inl ⟨atEdge.phase, by
    rw [atEdge.synced.pciClk, atEdge.phase]
    rfl⟩

/-- `__pci_next_posedge` shows the outputs of the edge for a whole clock. -/
theorem pciNextPosedge_ensures
    (drive : Drive) :
    Ensures
      (fun manners stance =>
        AtEdge manners stance ∧ stance.drive = drive ∧
          manners.Next drive)
      (pciNextPosedge : Call User Handle Unit)
      fun _ => NextEdge drive := by
  unfold pciNextPosedge
  apply Ensures.bind fun _ => SecondHalf drive
  · apply (whileDo_sendReady_ensures (fun clk => clk = .one)
      (FirstHalf .one drive)
      (sendReadyCommand_firstHalf .one drive
        (fun clk => clk = .one) rfl)).weaken
    · rintro manners stance ⟨atEdge, rfl, next⟩
      exact atEdge.firstHalf next
    · rintro _ manners stance ⟨half, ends⟩
      exact half.fallen (fun clk => clk = .one) rfl rfl ends
  · intro _
    apply Ensures.bind fun _ => NextEdge drive
    · apply (whileDo_sendReady_ensures (fun clk => clk = .zero)
        (SecondHalf drive)
        (sendReadyCommand_secondHalf drive
          (fun clk => clk = .zero) rfl)).weaken
      · intro manners stance half
        exact half
      · rintro _ manners stance ⟨half, ends⟩
        exact half.risen (fun clk => clk = .zero) rfl ends
    · intro _
      apply Ensures.modifyState
      intro manners pci nextEdge
      exact nextEdge

end

end Simbus.Pci
