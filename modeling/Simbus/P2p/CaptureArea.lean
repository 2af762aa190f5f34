import Simbus.P2p.Cameralink

/-!
# The area of the capture program

What the main loop of `capture.c` stores for any stream of video words.  The
pixels of a frame are counted from the end of the one before, and nothing
compares the count with the area.  The buffer has the area: that `3*area` may wrap
in its allocation is left out.
-/

namespace Simbus.P2p.Cameralink

/-! ## Streams of video words -/

/-- A pixel of a line of a frame. -/
def isPixel (val : BitVec 32) : Bool :=
  val.getLsbD 26 && val.getLsbD 25 && val.getLsbD 24

/-- A word inside of a frame. -/
def inFrame (val : BitVec 32) : Bool :=
  val.getLsbD 26

namespace Capture

/-- The program before its main loop. -/
def init
    (videoArea : Nat)
    (videoData : Nat → Byte) : Capture where
  cap := .init videoArea videoData
  captureSeq := 0
  files := []

/-- The program after `capture_step` has received a word. -/
def received
    (capture : Capture)
    (val : BitVec 32) : Capture :=
  { capture with cap := capture.cap.receive val }

/-- The states in which the turns of the main loop process their words. -/
def turns
    (captureCount : Int) : List (BitVec 32) → Capture → List Capture
  | [], _ => []
  | val :: rest, capture =>
      if capture.goesOn captureCount then
        capture.received val ::
          match (capture.received val).process with
          | some after => turns captureCount rest after
          | none => []
      else
        []

/-- The turn stores a pixel. -/
def Stores (capture : Capture) : Prop :=
  capture.cap.fvv = true ∧ capture.cap.lvv = true ∧ capture.cap.vce = true

/-- The turn writes an image. -/
def Writes (capture : Capture) : Prop :=
  capture.cap.fvv = false ∧ capture.cap.videoPtr ≠ 0

/-- The size in pixels of the image that is written. -/
def imageSize (capture : Capture) : Nat :=
  capture.cap.measure.videoWid.toNat *
    (capture.cap.measure.videoPtr / capture.cap.measure.videoWid).toNat

/-- A turn stores its pixel and writes its image within the area. -/
structure WithinArea (capture : Capture) : Prop where
  stores : capture.Stores →
    capture.cap.videoPtr.toNat < capture.cap.videoArea
  writes : capture.Writes → capture.imageSize ≤ capture.cap.videoArea

end Capture

/-- What a stream has brought: images to go, and the pixels of a frame. -/
structure FrameCount where
  images : Int
  pixels : Nat
  within : Bool

namespace FrameCount

/-- The count after a word; it starts anew at the end of a frame. -/
def next
    (count : FrameCount)
    (val : BitVec 32) : FrameCount :=
  if isPixel val then
    { count with pixels := count.pixels + 1, within := true }
  else if inFrame val then
    { count with within := true }
  else
    { images := if count.pixels = 0 then count.images else count.images - 1
      pixels := 0
      within := false }

/-- The loop takes another word. -/
def GoesOn (count : FrameCount) : Prop :=
  count.within = true ∨ 0 < count.images

end FrameCount

/--
No frame has more pixels than the area, in the part of the stream that the loop
takes.
-/
def FramesFit (area : Nat) : FrameCount → List (BitVec 32) → Prop
  | _, [] => True
  | count, val :: rest =>
      count.GoesOn →
        (isPixel val = true → count.pixels < area) ∧
          FramesFit area (count.next val) rest

/-! ## One turn -/

section Turn

variable {capture : Capture}
variable {val : BitVec 32}

theorem stores_received :
    (capture.received val).Stores ↔ isPixel val = true := by
  simp [Capture.Stores, Capture.received, CameralinkCapture.receive, isPixel,
    and_assoc]

/-- What a turn leaves, apart from the buffer and the files. -/
structure Leaves
    (capture after : Capture)
    (ptr : BitVec 32)
    (within : Bool)
    (written : Nat) : Prop where
  area : after.cap.videoArea = capture.cap.videoArea
  ptr : after.cap.videoPtr = ptr
  fvv : after.cap.fvv = within
  seq : after.captureSeq = capture.captureSeq + written

theorem storePixel_of_room
    {cap : CameralinkCapture}
    (inside : cap.videoPtr.toNat < cap.videoArea) :
    ∃ next, cap.storePixel = some next ∧ next.videoArea = cap.videoArea ∧
      next.videoPtr = cap.videoPtr + 1 ∧ next.fvv = cap.fvv := by
  have room : (3 * cap.videoPtr).toNat + 3 ≤ 3 * cap.videoArea := by
    have isThree : (3 : BitVec 32).toNat = 3 := rfl
    have wraps := Nat.mod_le (3 * cap.videoPtr.toNat) (2 ^ 32)
    rw [BitVec.toNat_mul, isThree]
    omega
  exact ⟨_, if_pos room, rfl, rfl, rfl⟩

/-- A pixel below the area has room in the buffer. -/
theorem process_pixel
    (capture : Capture)
    (pixel : isPixel val = true)
    (inside : capture.cap.videoPtr.toNat < capture.cap.videoArea) :
    ∃ after, (capture.received val).process = some after ∧
      Leaves capture after (capture.cap.videoPtr + 1) true 0 := by
  have isStored : (capture.received val).Stores := stores_received.mpr pixel
  unfold Capture.Stores at isStored
  obtain ⟨next, stores, sameArea, moved, sameFvv⟩ := storePixel_of_room
    (show ({ (capture.received val).cap with
      camRequest := !(capture.received val).cap.fvv } :
        CameralinkCapture).videoPtr.toNat < capture.cap.videoArea from inside)
  refine ⟨{ capture.received val with cap := next }, ?_, sameArea, moved,
    sameFvv.trans isStored.1, rfl⟩
  rw [Capture.process]
  simp only
  rw [if_pos isStored, stores]
  rfl

/-- A word of a frame without a pixel moves nothing. -/
theorem process_blank
    (capture : Capture)
    (within : inFrame val = true)
    (blank : isPixel val = false) :
    ∃ after, (capture.received val).process = some after ∧
      Leaves capture after capture.cap.videoPtr true 0 := by
  have noPixel : ¬ (capture.received val).Stores := by
    rw [stores_received, blank]
    decide
  have isFvv : (capture.received val).cap.fvv = true := within
  unfold Capture.Stores at noPixel
  rw [Capture.process]
  simp only
  rw [if_neg noPixel]
  split_ifs with lineEnd frameEnd
  · exact ⟨_, rfl, rfl, rfl, within, rfl⟩
  · exact absurd isFvv frameEnd.1
  · exact ⟨_, rfl, rfl, rfl, within, rfl⟩

/-- Between the frames the count is zero, after an image has been written. -/
theorem process_gap
    (capture : Capture)
    (outside : inFrame val = false) :
    ∃ after, (capture.received val).process = some after ∧
      Leaves capture after 0 false (if capture.cap.videoPtr = 0 then 0 else 1) := by
  have isFvv : (capture.received val).cap.fvv = false := outside
  have noPixel : ¬ ((capture.received val).cap.fvv = true ∧
      (capture.received val).cap.lvv = true ∧
      (capture.received val).cap.vce = true) := by
    simp [isFvv]
  have noLineEnd : ¬ ((capture.received val).cap.fvv = true ∧
      ¬ (capture.received val).cap.lvv = true) := by
    simp [isFvv]
  rw [Capture.process]
  simp only
  rw [if_neg noPixel, if_neg noLineEnd]
  by_cases noPixels : capture.cap.videoPtr = 0
  · rw [if_pos noPixels, if_neg fun frameEnd => frameEnd.2 noPixels]
    exact ⟨_, rfl, rfl, noPixels, outside, rfl⟩
  · rw [if_neg noPixels, if_pos ⟨Bool.eq_false_iff.mp isFvv, noPixels⟩]
    exact ⟨_, rfl, rfl, rfl, outside, rfl⟩

/-- A turn goes through, unless it stores a pixel past the area. -/
theorem process_leaves
    (capture : Capture)
    (val : BitVec 32)
    (stores : isPixel val = true →
      capture.cap.videoPtr.toNat < capture.cap.videoArea) :
    ∃ after, (capture.received val).process = some after ∧
      ∃ ptr within written, Leaves capture after ptr within written := by
  by_cases pixel : isPixel val = true
  · obtain ⟨after, processes, leaves⟩ := process_pixel capture pixel (stores pixel)
    exact ⟨after, processes, _, _, _, leaves⟩
  · by_cases within : inFrame val = true
    · obtain ⟨after, processes, leaves⟩ :=
        process_blank capture within (Bool.eq_false_iff.mpr pixel)
      exact ⟨after, processes, _, _, _, leaves⟩
    · obtain ⟨after, processes, leaves⟩ :=
        process_gap capture (Bool.eq_false_iff.mpr within)
      exact ⟨after, processes, _, _, _, leaves⟩

/-- A written image has no more pixels than have been stored. -/
theorem imageSize_le (capture : Capture) :
    capture.imageSize ≤ capture.cap.videoPtr.toNat := by
  rw [Capture.imageSize, BitVec.toNat_udiv]
  exact Nat.mul_div_le _ _

theorem withinArea_received
    (counted : capture.cap.videoPtr.toNat ≤ capture.cap.videoArea) :
    (capture.received val).WithinArea ↔
      (isPixel val = true →
        capture.cap.videoPtr.toNat < capture.cap.videoArea) := by
  constructor
  · intro within pixel
    exact within.stores (stores_received.mpr pixel)
  · intro stores
    exact
      { stores := fun isStored => stores (stores_received.mp isStored)
        writes := fun _ => (imageSize_le _).trans counted }

end Turn

/-! ## Whole streams -/

section Streams

variable {captureCount : Int}
variable {capture : Capture}
variable {words : List (BitVec 32)}

theorem forall_turns_cons
    {property : Capture → Prop}
    {val : BitVec 32}
    {after : Capture}
    (goesOn : capture.goesOn captureCount = true)
    (processes : (capture.received val).process = some after) :
    (∀ turn ∈ Capture.turns captureCount (val :: words) capture,
        property turn) ↔
      property (capture.received val) ∧
        ∀ turn ∈ Capture.turns captureCount words after, property turn := by
  rw [Capture.turns, if_pos goesOn, processes, List.forall_mem_cons]

/-- The pointer of 32 bits stays below an area that it cannot count. -/
theorem withinArea_of_large
    (large : 2 ^ 32 ≤ capture.cap.videoArea) :
    ∀ turn ∈ Capture.turns captureCount words capture, turn.WithinArea := by
  induction words generalizing capture with
  | nil =>
      intro turn isTurn
      simp [Capture.turns] at isTurn
  | cons val rest inductionHypothesis =>
      by_cases goesOn : capture.goesOn captureCount = true
      · have bounded := capture.cap.videoPtr.isLt
        have below : capture.cap.videoPtr.toNat < capture.cap.videoArea := by
          omega
        obtain ⟨after, processes, ptr, within, written, leaves⟩ :=
          process_leaves capture val fun _ => below
        rw [forall_turns_cons goesOn processes,
          withinArea_received (Nat.le_of_lt below)]
        exact ⟨fun _ => below, inductionHypothesis (leaves.area ▸ large)⟩
      · rw [Capture.turns, if_neg goesOn]
        simp

/-- The program has counted what the stream has brought. -/
structure Counts
    (captureCount : Int)
    (area : Nat)
    (capture : Capture)
    (count : FrameCount) : Prop where
  sameArea : capture.cap.videoArea = area
  images : count.images = captureCount - capture.captureSeq
  pixels : capture.cap.videoPtr.toNat = count.pixels
  counted : count.pixels ≤ area
  within : capture.cap.fvv = count.within

theorem Counts.goesOn_iff
    {area : Nat}
    {count : FrameCount}
    (counts : Counts captureCount area capture count) :
    capture.goesOn captureCount = true ↔ count.GoesOn := by
  rw [Capture.goesOn, FrameCount.GoesOn, Bool.or_eq_true, decide_eq_true_eq,
    counts.images, counts.within, Int.sub_pos]

/-- The step of the invariant, for an area that the counter can exceed. -/
theorem Counts.next
    {area : Nat}
    {count : FrameCount}
    {val : BitVec 32}
    (counts : Counts captureCount area capture count)
    (small : area < 2 ^ 32)
    (stores : isPixel val = true → count.pixels < area) :
    ∃ after, (capture.received val).process = some after ∧
      Counts captureCount area after (count.next val) := by
  have isArea := counts.sameArea
  have isPixels := counts.pixels
  have counted := counts.counted
  by_cases pixel : isPixel val = true
  · have below := stores pixel
    obtain ⟨after, processes, leaves⟩ :=
      process_pixel capture pixel (by omega)
    have moved : after.cap.videoPtr.toNat = count.pixels + 1 := by
      have isOne : (1 : BitVec 32).toNat = 1 := rfl
      rw [leaves.ptr, BitVec.toNat_add, isOne, Nat.mod_eq_of_lt (by omega)]
      omega
    refine ⟨after, processes, ?_⟩
    rw [FrameCount.next, if_pos pixel]
    exact
      { sameArea := leaves.area.trans isArea
        images := by rw [leaves.seq]; exact counts.images
        pixels := moved
        counted := below
        within := leaves.fvv }
  · by_cases within : inFrame val = true
    · obtain ⟨after, processes, leaves⟩ :=
        process_blank capture within (Bool.eq_false_iff.mpr pixel)
      refine ⟨after, processes, ?_⟩
      rw [FrameCount.next, if_neg pixel, if_pos within]
      exact
        { sameArea := leaves.area.trans isArea
          images := by rw [leaves.seq]; exact counts.images
          pixels := by rw [leaves.ptr]; exact isPixels
          counted := counted
          within := leaves.fvv }
    · obtain ⟨after, processes, leaves⟩ :=
        process_gap capture (Bool.eq_false_iff.mpr within)
      refine ⟨after, processes, ?_⟩
      rw [FrameCount.next, if_neg pixel, if_neg within]
      have empty : capture.cap.videoPtr = 0 ↔ count.pixels = 0 := by
        rw [← isPixels, ← BitVec.toNat_inj]
        rfl
      exact
        { sameArea := leaves.area.trans isArea
          images := by
            rw [leaves.seq, counts.images]
            simp only [empty]
            split
            · rfl
            · rw [Nat.cast_add, Nat.cast_one]
              omega
          pixels := by rw [leaves.ptr]; rfl
          counted := Nat.zero_le _
          within := leaves.fvv }

/-- Below that, the turns stay in the area as long as the frames fit. -/
theorem Counts.withinArea_iff
    {area : Nat}
    {count : FrameCount}
    (counts : Counts captureCount area capture count)
    (small : area < 2 ^ 32) :
    (∀ turn ∈ Capture.turns captureCount words capture, turn.WithinArea) ↔
      FramesFit area count words := by
  induction words generalizing capture count with
  | nil =>
      simp [Capture.turns, FramesFit]
  | cons val rest inductionHypothesis =>
      by_cases goesOn : capture.goesOn captureCount = true
      · have inside : (capture.received val).WithinArea ↔
            (isPixel val = true → count.pixels < area) := by
          rw [← counts.pixels, ← counts.sameArea]
          exact withinArea_received
            (by rw [counts.pixels, counts.sameArea]; exact counts.counted)
        rw [FramesFit, imp_iff_right (counts.goesOn_iff.mp goesOn)]
        by_cases stores : isPixel val = true → count.pixels < area
        · obtain ⟨after, processes, countsAfter⟩ := counts.next small stores
          rw [forall_turns_cons goesOn processes, inside,
            inductionHypothesis countsAfter]
        · refine iff_of_false (fun claimed => stores (inside.mp ?_))
            (fun fits => stores fits.1)
          apply claimed
          rw [Capture.turns, if_pos goesOn]
          exact List.mem_cons_self
      · rw [FramesFit, Capture.turns, if_neg goesOn]
        simp [counts.goesOn_iff.not.mp goesOn]

end Streams

/--
The capture program stays in its area exactly for streams whose frames fit into
it, unless its pixel counter cannot exceed the area.
-/
theorem withinArea_iff_framesFit
    (captureCount : Int)
    (videoArea : Nat)
    (videoData : Nat → Byte)
    (words : List (BitVec 32)) :
    (∀ turn ∈ Capture.turns captureCount words (.init videoArea videoData),
        turn.WithinArea) ↔
      2 ^ 32 ≤ videoArea ∨
        FramesFit videoArea
          { images := captureCount, pixels := 0, within := false } words := by
  obtain large | small := Nat.lt_or_ge videoArea (2 ^ 32) |>.symm
  · exact iff_of_true (withinArea_of_large large) (Or.inl large)
  · have counts : Counts captureCount videoArea (.init videoArea videoData)
        { images := captureCount, pixels := 0, within := false } :=
      { sameArea := rfl
        images := (Int.sub_zero captureCount).symm
        pixels := rfl
        counted := Nat.zero_le _
        within := rfl }
    rw [counts.withinArea_iff small]
    exact (or_iff_right (Nat.not_le_of_lt small)).symm

/-- Two pixels of one frame, for an area of one pixel. -/
theorem twoPixels_leave :
    ¬ ∀ (captureCount : Int) (videoArea : Nat) (videoData : Nat → Byte)
      (words : List (BitVec 32)),
      ∀ turn ∈ Capture.turns captureCount words (.init videoArea videoData),
        turn.WithinArea := by
  intro claimed
  have counts : Counts 1 1 (.init 1 fun _ => 0)
      { images := 1, pixels := 0, within := false } :=
    { sameArea := rfl
      images := rfl
      pixels := rfl
      counted := Nat.zero_le _
      within := rfl }
  have fits := (counts.withinArea_iff (by decide)).mp
    (claimed 1 1 (fun _ => 0) [0x07000000, 0x07000000])
  have second := (fits (Or.inr (by decide))).2 (Or.inl rfl)
  exact absurd (second.1 rfl) (by decide)

end Simbus.P2p.Cameralink
