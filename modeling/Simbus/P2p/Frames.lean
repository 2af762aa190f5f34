import Simbus.P2p.Cameralink
import Mathlib

/-!
# Images from the camera to the capture program

What both programs do from one edge of the clock to the next one: each of them
gets what the other one has put out and prepares its next outputs.  An image is
sent position by position, and the capture program stores the pixels and writes
the image to a file in the gap after it.
-/

namespace Simbus.P2p.Cameralink

/-! ## Outputs and inputs -/

/-- The pixel in the output bits of the camera. -/
theorem outBits_pixel (cam : CameralinkMaster) :
    cam.outBits.setWidth 8 = cam.red ∧
      (cam.outBits >>> 8).setWidth 8 = cam.green ∧
      (cam.outBits >>> 16).setWidth 8 = cam.blue := by
  unfold CameralinkMaster.outBits
  refine ⟨?_, ?_, ?_⟩ <;> apply BitVec.eq_of_getLsbD_eq <;>
    intro bit bounded <;> cases cam.vce <;> cases cam.lvv <;>
      cases cam.fvv <;> interval_cases bit <;> simp

/-- The signals in the output bits of the camera, and the bits without use. -/
theorem outBits_signals (cam : CameralinkMaster) :
    cam.outBits.getLsbD 24 = cam.vce ∧ cam.outBits.getLsbD 25 = cam.lvv ∧
      cam.outBits.getLsbD 26 = cam.fvv ∧
      ∀ bit < 32, 27 ≤ bit → cam.outBits.getLsbD bit = false := by
  unfold CameralinkMaster.outBits
  refine ⟨?_, ?_, ?_, ?_⟩
  · cases cam.vce <;> cases cam.lvv <;> cases cam.fvv <;> simp
  · cases cam.vce <;> cases cam.lvv <;> cases cam.fvv <;> simp
  · cases cam.vce <;> cases cam.lvv <;> cases cam.fvv <;> simp
  · intro bit bounded unused
    cases cam.vce <;> cases cam.lvv <;> cases cam.fvv <;>
      interval_cases bit <;> simp

/-- The capture program gets the signals and the pixel of the camera. -/
theorem receive_outBits
    (cap : CameralinkCapture)
    (cam : CameralinkMaster) :
    cap.receive cam.outBits =
      { cap with
        red := cam.red
        green := cam.green
        blue := cam.blue
        vce := cam.vce
        lvv := cam.lvv
        fvv := cam.fvv } := by
  obtain ⟨red, green, blue⟩ := outBits_pixel cam
  obtain ⟨vce, lvv, fvv, _⟩ := outBits_signals cam
  rw [CameralinkCapture.receive, red, green, blue, vce, lvv, fvv]

/-- The output bits of the capture program. -/
theorem outBits_request (cap : CameralinkCapture) :
    cap.outBits.getLsbD 1 = cap.camRequest ∧
      ∀ bit < 32, 8 ≤ bit → cap.outBits.getLsbD bit = false := by
  unfold CameralinkCapture.outBits
  constructor
  · cases cap.camEnable <;> cases cap.camRequest <;> rfl
  · intro bit bounded unused
    cases cap.camEnable <;> cases cap.camRequest <;>
      interval_cases bit <;> rfl

/-! ## Positions -/

section Positions

variable {line width pos : Nat}

/-- The pixels before a position, on lines with a margin after `width` pixels. -/
def pixelsBefore (line width pos : Nat) : Nat :=
  pos / line * width + min (pos % line) width

/-- The next position is on the same line, or the first one of the next line. -/
theorem next_position
    (someLine : 0 < line)
    (pos : Nat) :
    (pos % line + 1 < line ∧ (pos + 1) / line = pos / line ∧
        (pos + 1) % line = pos % line + 1) ∨
      (pos % line + 1 = line ∧ (pos + 1) / line = pos / line + 1 ∧
        (pos + 1) % line = 0) := by
  have whole := Nat.div_add_mod pos line
  have inside := Nat.mod_lt pos someLine
  rcases Nat.lt_or_ge (pos % line + 1) line with same | last
  · obtain ⟨isDiv, isMod⟩ := (Nat.div_mod_unique someLine).mpr
      ⟨show pos % line + 1 + line * (pos / line) = pos + 1 by omega, same⟩
    exact .inl ⟨same, isDiv, isMod⟩
  · have isLast : pos % line + 1 = line := Nat.le_antisymm inside last
    obtain ⟨isDiv, isMod⟩ := (Nat.div_mod_unique someLine).mpr
      ⟨show 0 + line * (pos / line + 1) = pos + 1 by
        rw [Nat.mul_add]
        omega, someLine⟩
    exact .inr ⟨isLast, isDiv, isMod⟩

theorem pixelsBefore_zero : pixelsBefore line width 0 = 0 := by
  simp [pixelsBefore]

/-- A pixel follows the ones before it. -/
theorem pixelsBefore_pixel
    (margin : width < line)
    (inLine : pos % line < width) :
    pixelsBefore line width pos = pos / line * width + pos % line ∧
      pixelsBefore line width (pos + 1) =
        pixelsBefore line width pos + 1 := by
  have someLine : 0 < line := Nat.zero_lt_of_lt margin
  unfold pixelsBefore
  rcases next_position someLine pos with ⟨_, isDiv, isMod⟩ | ⟨isLast, _, _⟩
  · rw [isDiv, isMod]
    omega
  · omega

/-- A margin has no pixels. -/
theorem pixelsBefore_margin
    (margin : width < line)
    (beyond : width ≤ pos % line) :
    pixelsBefore line width (pos + 1) = pixelsBefore line width pos := by
  have someLine : 0 < line := Nat.zero_lt_of_lt margin
  unfold pixelsBefore
  rcases next_position someLine pos with ⟨_, isDiv, isMod⟩ | ⟨isLast, isDiv, isMod⟩
  · rw [isDiv, isMod]
    omega
  · rw [isDiv, isMod, Nat.add_mul]
    omega

theorem pixelsBefore_lines
    (someLine : 0 < line)
    (height : Nat) :
    pixelsBefore line width (line * height) = width * height := by
  rw [pixelsBefore, Nat.mul_div_cancel_left height someLine, Nat.mul_mod_right,
    Nat.zero_min, Nat.add_zero, Nat.mul_comm]

/-- A pixel of an image is one of its pixels. -/
theorem pixelsBefore_lt
    {height : Nat}
    (margin : width < line)
    (inLine : pos % line < width)
    (inside : pos < line * height) :
    pixelsBefore line width pos < width * height := by
  rw [(pixelsBefore_pixel margin inLine).1]
  have row : pos / line < height := Nat.div_lt_of_lt_mul inside
  calc pos / line * width + pos % line
      < pos / line * width + width := Nat.add_lt_add_left inLine _
    _ = (pos / line + 1) * width := (Nat.succ_mul _ _).symm
    _ ≤ height * width := Nat.mul_le_mul_right width row
    _ = width * height := Nat.mul_comm _ _

end Positions

/-! ## The options of both programs -/

/--
How the server and both programs are started: the clock and the identifier of
the capture program, the images and the options of the camera, and the memory of
the capture program and the number of images that it is to capture.
-/
structure Setup where
  options : ClockOptions
  accepted : options.Accepted
  deviceIdent : Nat
  isDevice : deviceIdent ≠ 0
  images : Nat → Image
  useWid : BitVec 32
  useMar : BitVec 32
  useGap : BitVec 32
  someWid : useWid ≠ 0
  someMar : 0 < useMar.toNat
  someGap : 0 < useGap.toNat
  videoArea : Nat
  videoData : Nat → Byte
  captureCount : Int
  room : ∀ count,
    (images count).width.toNat * (images count).height.toNat ≤ videoArea

namespace Setup

variable (setup : Setup)

/-- The positions of a line, with the margin after it. -/
def line (image : Image) : Nat :=
  image.width.toNat + setup.useMar.toNat

/-- The positions of an image without the gap after it. -/
def frame (image : Image) : Nat :=
  setup.line image * image.height.toNat

/-- The positions of an image with the gap after it. -/
def period (image : Image) : Nat :=
  setup.line image * (image.height.toNat + setup.useGap.toNat)

/--
The counters for the positions of an image do not overflow, and what the camera
reads in the margin of the last line can be read.
-/
structure FrameFits (image : Image) : Prop where
  positions : setup.frame image < 2 ^ 32
  lines : image.height.toNat + setup.useGap.toNat < 2 ^ 32
  bytes : 3 * (image.width.toNat * image.height.toNat) < 2 ^ 32
  margin : ∀ hpos < setup.line image,
    3 * (image.width.toNat * (image.height.toNat - 1)) + 3 * hpos % 2 ^ 32 + 3 ≤
      (image.data ++ image.behind).length

theorem width_lt_line (image : Image) :
    image.width.toNat < setup.line image :=
  Nat.lt_add_of_pos_right setup.someMar

theorem line_pos (image : Image) : 0 < setup.line image :=
  Nat.zero_lt_of_lt (setup.width_lt_line image)

theorem line_le_frame (image : Image) :
    setup.line image ≤ setup.frame image :=
  Nat.le_mul_of_pos_right _ image.someHeight

/-- An image takes at least two positions, and so does its gap. -/
theorem two_le_line (image : Image) : 2 ≤ setup.line image := by
  have someWidth := image.someWidth
  have someMar := setup.someMar
  unfold line
  omega

theorem frame_lt_period (image : Image) :
    setup.frame image + 2 ≤ setup.period image := by
  have two := setup.two_le_line image
  have gap : setup.line image ≤ setup.line image * setup.useGap.toNat :=
    Nat.le_mul_of_pos_right _ setup.someGap
  unfold frame period
  rw [Nat.mul_add]
  omega

end Setup

/-! ## The camera -/

section Camera

variable {setup : Setup}
variable {image : Image}
variable {cam : CameralinkMaster}
variable {pos : Nat}

/-- A camera that sends an image, at a position. -/
structure Imaging
    (setup : Setup)
    (image : Image)
    (pos : Nat)
    (cam : CameralinkMaster) : Prop where
  videoData : cam.videoData = some (image.data ++ image.behind)
  videoWid : cam.videoWid = image.width
  videoMar : cam.videoMar = setup.useMar
  videoHei : cam.videoHei = image.height
  videoGap : cam.videoGap = setup.useGap
  videoPtr : cam.videoPtr.toNat = pos

/-- The line and the column of a position, as the camera calculates them. -/
theorem Imaging.position
    (imaging : Imaging setup image pos cam)
    (fits : setup.FrameFits image) :
    cam.frameWidth ≠ 0 ∧
      (cam.videoPtr / cam.frameWidth).toNat = pos / setup.line image ∧
      (cam.videoPtr % cam.frameWidth).toNat = pos % setup.line image ∧
      cam.frameHeight.toNat =
        image.height.toNat + setup.useGap.toNat := by
  have isLine : cam.frameWidth.toNat = setup.line image := by
    have small := Nat.lt_of_le_of_lt (setup.line_le_frame image) fits.positions
    rw [CameralinkMaster.frameWidth, imaging.videoWid, imaging.videoMar,
      BitVec.toNat_add]
    exact Nat.mod_eq_of_lt small
  refine ⟨?_, ?_, ?_, ?_⟩
  · intro isZero
    have someLine := setup.line_pos image
    rw [← isLine, isZero] at someLine
    exact Nat.lt_irrefl 0 someLine
  · rw [BitVec.toNat_udiv, isLine, imaging.videoPtr]
  · rw [BitVec.toNat_umod, isLine, imaging.videoPtr]
  · rw [CameralinkMaster.frameHeight, imaging.videoHei, imaging.videoGap,
      BitVec.toNat_add]
    exact Nat.mod_eq_of_lt fits.lines

/-- What the camera sends can be read, in a margin too. -/
theorem Imaging.readable
    (imaging : Imaging setup image pos cam)
    (fits : setup.FrameFits image)
    (row : pos / setup.line image < image.height.toNat) :
    (3 * cam.videoWid * (cam.videoPtr / cam.frameWidth)).toNat +
        (3 * (cam.videoPtr % cam.frameWidth)).toNat + 3 ≤
      (image.data ++ image.behind).length := by
  obtain ⟨_, vpos, hpos, _⟩ := imaging.position fits
  have column := Nat.mod_lt pos (setup.line_pos image)
  have above : image.width.toNat * (pos / setup.line image) ≤
      image.width.toNat * (image.height.toNat - 1) :=
    Nat.mul_le_mul_left _ (by omega)
  have three : (3 : BitVec 32).toNat = 3 := rfl
  have isRow : (3 * cam.videoWid * (cam.videoPtr / cam.frameWidth)).toNat ≤
      3 * (image.width.toNat * (pos / setup.line image)) := by
    rw [BitVec.toNat_mul, BitVec.toNat_mul, three, vpos, imaging.videoWid,
      ← Nat.mul_assoc 3]
    refine Nat.le_trans (Nat.mod_le _ _) (Nat.mul_le_mul_right _ ?_)
    exact Nat.mod_le _ _
  have isColumn : (3 * (cam.videoPtr % cam.frameWidth)).toNat =
      3 * (pos % setup.line image) % 2 ^ 32 := by
    rw [BitVec.toNat_mul, three, hpos]
  have margin := fits.margin _ column
  omega

/-- The camera sends a position of an image. -/
structure Sends
    (setup : Setup)
    (image : Image)
    (pos : Nat)
    (cam : CameralinkMaster) : Prop extends Imaging setup image pos cam where
  vce : cam.vce = true
  fvv : cam.fvv = true
  lvv : cam.lvv = decide (pos % setup.line image < image.width.toNat)
  pixel : pos % setup.line image < image.width.toNat →
    let pix := 3 * pixelsBefore (setup.line image) image.width.toNat pos
    cam.red = image.data.getD pix 0 ∧
      cam.green = image.data.getD (pix + 1) 0 ∧
      cam.blue = image.data.getD (pix + 2) 0

/-- The camera is in the gap after an image. -/
structure InGap
    (setup : Setup)
    (image : Image)
    (pos : Nat)
    (cam : CameralinkMaster) : Prop extends Imaging setup image pos cam where
  fvv : cam.fvv = false

/-- The camera has no image. -/
structure Blank
    (setup : Setup)
    (cam : CameralinkMaster) : Prop where
  videoData : cam.videoData = none
  videoMar : cam.videoMar = setup.useMar
  videoGap : cam.videoGap = setup.useGap
  someLine : cam.frameWidth ≠ 0
  fvv : cam.fvv = false

/-- The address of a pixel does not overflow. -/
theorem pix_eq
    {width vpos hpos : BitVec 32}
    {line height : Nat}
    (margin : width.toNat < line)
    (bytes : 3 * (width.toNat * height) < 2 ^ 32)
    (isVpos : vpos.toNat = pos / line)
    (isHpos : hpos.toNat = pos % line)
    (inLine : pos % line < width.toNat)
    (inside : pos < line * height) :
    (3 * width * vpos).toNat + (3 * hpos).toNat =
      3 * pixelsBefore line width.toNat pos := by
  have pixels := pixelsBefore_lt margin inLine inside
  obtain ⟨isPixel, _⟩ := pixelsBefore_pixel margin inLine
  rw [isPixel] at pixels ⊢
  have product : 3 * width.toNat * (pos / line) =
      3 * (pos / line * width.toNat) := by
    rw [Nat.mul_assoc, Nat.mul_comm width.toNat]
  have row : pos / line < height := Nat.div_lt_of_lt_mul inside
  have wide : width.toNat ≤ width.toNat * height :=
    Nat.le_mul_of_pos_right _ (Nat.zero_lt_of_lt row)
  have three : (3 : BitVec 32).toNat = 3 := rfl
  rw [BitVec.toNat_mul, BitVec.toNat_mul, BitVec.toNat_mul, three, isVpos,
    isHpos, Nat.mod_eq_of_lt (show 3 * width.toNat < 2 ^ 32 by omega), product,
    Nat.mod_eq_of_lt (show 3 * (pos / line * width.toNat) < 2 ^ 32 by omega),
    Nat.mod_eq_of_lt (show 3 * (pos % line) < 2 ^ 32 by omega)]
  omega

/-- A pixel of an image lies in its buffer. -/
theorem Image.getD_behind
    (image : Image)
    {place : Nat}
    (inside : place < image.width.toNat * image.height.toNat) :
    let pix := 3 * place
    (image.data ++ image.behind).getD pix 0 = image.data.getD pix 0 ∧
      (image.data ++ image.behind).getD (pix + 1) 0 =
        image.data.getD (pix + 1) 0 ∧
      (image.data ++ image.behind).getD (pix + 2) 0 =
        image.data.getD (pix + 2) 0 := by
  have complete := image.complete
  exact ⟨List.getD_append _ _ _ _ (by omega),
    List.getD_append _ _ _ _ (by omega), List.getD_append _ _ _ _ (by omega)⟩

/-- In an image a camera sends the pixel of its position. -/
theorem Imaging.sends
    (imaging : Imaging setup image pos cam)
    (fits : setup.FrameFits image)
    (inside : pos < setup.frame image) :
    ∃ next, cam.video = some next ∧ Sends setup image pos next ∧
      next.armRequest = cam.armRequest := by
  obtain ⟨someLine, vpos, hpos, height⟩ := imaging.position fits
  have row : pos / setup.line image < image.height.toNat :=
    Nat.div_lt_of_lt_mul inside
  have notOver : ¬ cam.frameHeight ≤ cam.videoPtr / cam.frameWidth := by
    rw [BitVec.le_def, vpos, height]
    omega
  have notGap : ¬ cam.videoHei ≤ cam.videoPtr / cam.frameWidth := by
    rw [BitVec.le_def, vpos, imaging.videoHei]
    omega
  have column : (cam.videoPtr % cam.frameWidth < cam.videoWid) ↔
      pos % setup.line image < image.width.toNat := by
    rw [BitVec.lt_def, hpos, imaging.videoWid]
  have readable := imaging.readable fits row
  rw [CameralinkMaster.video, if_neg someLine]
  simp only [imaging.videoData, notOver, notGap, readable, if_false, if_true,
    Option.some.injEq, exists_eq_left']
  refine ⟨⟨⟨rfl, imaging.videoWid, imaging.videoMar, imaging.videoHei,
    imaging.videoGap, imaging.videoPtr⟩, rfl, rfl, ?_, ?_⟩, trivial⟩
  · simp only [column]
  · intro inLine
    have pix := pix_eq (setup.width_lt_line image) fits.bytes vpos hpos inLine
      inside
    obtain ⟨red, green, blue⟩ := image.getD_behind
      (pixelsBefore_lt (setup.width_lt_line image) inLine inside)
    rw [← imaging.videoWid] at pix red green blue ⊢
    simp only [pix, red, green, blue, and_self]

/-- After an image a camera sends nothing. -/
theorem Imaging.inGap
    (imaging : Imaging setup image pos cam)
    (fits : setup.FrameFits image)
    (after : setup.frame image ≤ pos)
    (inside : pos < setup.period image) :
    ∃ next, cam.video = some next ∧ InGap setup image pos next ∧
      next.armRequest = cam.armRequest := by
  obtain ⟨someLine, vpos, hpos, height⟩ := imaging.position fits
  have row : pos / setup.line image <
      image.height.toNat + setup.useGap.toNat := Nat.div_lt_of_lt_mul inside
  have past : image.height.toNat ≤ pos / setup.line image :=
    (Nat.le_div_iff_mul_le (setup.line_pos image)).mpr
      (Nat.mul_comm _ _ ▸ after)
  have notOver : ¬ cam.frameHeight ≤ cam.videoPtr / cam.frameWidth := by
    rw [BitVec.le_def, vpos, height]
    omega
  have gap : cam.videoHei ≤ cam.videoPtr / cam.frameWidth := by
    rw [BitVec.le_def, vpos, imaging.videoHei]
    exact past
  rw [CameralinkMaster.video, if_neg someLine]
  simp only [imaging.videoData, notOver, gap, if_false, if_true,
    Option.some.injEq, exists_eq_left']
  exact ⟨⟨⟨rfl, imaging.videoWid, imaging.videoMar, imaging.videoHei,
    imaging.videoGap, imaging.videoPtr⟩, rfl⟩, trivial⟩

/-- At the end of the gap a camera drops the image. -/
theorem Imaging.clears
    (imaging : Imaging setup image pos cam)
    (fits : setup.FrameFits image)
    (after : setup.period image ≤ pos) :
    ∃ next, cam.video = some next ∧ Blank setup next ∧
      next.armRequest = cam.armRequest := by
  obtain ⟨someLine, vpos, hpos, height⟩ := imaging.position fits
  have isOver : cam.frameHeight ≤ cam.videoPtr / cam.frameWidth := by
    rw [BitVec.le_def, vpos, height]
    exact (Nat.le_div_iff_mul_le (setup.line_pos image)).mpr
      (Nat.mul_comm _ _ ▸ after)
  rw [CameralinkMaster.video, if_neg someLine]
  simp only [imaging.videoData, isOver, if_true, Option.some.injEq,
    exists_eq_left']
  exact ⟨⟨rfl, imaging.videoMar, imaging.videoGap, someLine, rfl⟩, rfl⟩

/-- The camera sends something at any position of an image and its gap. -/
theorem Imaging.video_some
    (imaging : Imaging setup image pos cam)
    (fits : setup.FrameFits image) :
    ∃ next, cam.video = some next := by
  obtain ⟨someLine, vpos, _, _⟩ := imaging.position fits
  rw [CameralinkMaster.video, if_neg someLine]
  simp only [imaging.videoData]
  split
  · exact ⟨_, rfl⟩
  · split
    · exact ⟨_, rfl⟩
    · rename_i inImage
      rw [BitVec.le_def, vpos, imaging.videoHei, Nat.not_le] at inImage
      rw [if_pos (imaging.readable fits inImage)]
      exact ⟨_, rfl⟩

/-- The camera with the inputs of an edge. -/
def CameralinkMaster.stepped
    (cam : CameralinkMaster)
    (val : BitVec 32) : CameralinkMaster :=
  { cam with
    camEnable := val.getLsbD 0
    camRequest := val.getLsbD 1
    armRequest := if val.getLsbD 1 then cam.armRequest else true
    videoPtr := cam.videoPtr + 1 }

/-- The next position in a blank line. -/
def nextBlank (cam : CameralinkMaster) : BitVec 32 :=
  (cam.videoPtr + 1) % cam.frameWidth

theorem Imaging.advanced
    (imaging : Imaging setup image pos cam)
    (val : BitVec 32) :
    cam.advance val = some (cam.stepped val) := by
  obtain ⟨isSome, _⟩ := imaging
  cases cam
  subst isSome
  rfl

/-- The camera without an image with the inputs of an edge. -/
def CameralinkMaster.marked
    (cam : CameralinkMaster)
    (val : BitVec 32) : CameralinkMaster :=
  { cam.stepped val with videoPtr := nextBlank cam }

theorem Blank.advanced
    (blank : Blank setup cam)
    (val : BitVec 32) :
    cam.advance val = some (cam.marked val) := by
  obtain ⟨isNone, _, _, someLine, _⟩ := blank
  cases cam
  subst isNone
  exact if_neg someLine

theorem Blank.marked
    (blank : Blank setup cam)
    (val : BitVec 32) :
    Blank setup (cam.marked val) :=
  ⟨blank.videoData, blank.videoMar, blank.videoGap, blank.someLine, blank.fvv⟩

/-- Without a request, or within a line, the camera takes no image. -/
theorem not_requested
    {val : BitVec 32}
    (waits : val.getLsbD 1 = false ∨ nextBlank cam ≠ 0) :
    ¬ Camera.Requested (cam.marked val) := by
  rintro ⟨_, _, requests, atStart⟩
  rcases waits with noRequest | later
  · cases requests.symm.trans noRequest
  · exact later atStart

/-- What the camera does at an edge, with its inputs, up to its next outputs. -/
def Camera.turned
    (images : Nat → Image)
    (val : BitVec 32)
    (camera : Camera) : Option Camera := do
  let cam ← camera.cam.advance val
  Camera.prepare images { camera with cam := cam }

variable {images : Nat → Image}
variable {camera : Camera}
variable {val : BitVec 32}

/-- The camera has the clock mode that it had. -/
theorem Camera.turned_curClock
    {next : Camera}
    (turned : camera.turned images val = some next) :
    next.curClock = camera.curClock := by
  obtain ⟨cam, _, prepared⟩ := Option.bind_eq_some_iff.mp turned
  simp only [Camera.prepare] at prepared
  split at prepared
  · obtain ⟨taken, isTaken, prepared⟩ := Option.bind_eq_some_iff.mp prepared
    obtain ⟨video, _, isNext⟩ := Option.bind_eq_some_iff.mp prepared
    rw [Camera.acquireNextImage, Option.map_eq_some_iff] at isTaken
    obtain ⟨loaded, _, rfl⟩ := isTaken
    obtain rfl := Option.some.inj isNext
    rfl
  · obtain ⟨kept, isKept, prepared⟩ := Option.bind_eq_some_iff.mp prepared
    obtain rfl := Option.some.inj isKept
    obtain ⟨video, _, isNext⟩ := Option.bind_eq_some_iff.mp prepared
    obtain rfl := Option.some.inj isNext
    rfl

/-- The camera after an edge. -/
structure Turned
    (val : BitVec 32)
    (camera next : Camera) : Prop where
  armRequest : next.cam.armRequest =
    if val.getLsbD 1 then camera.cam.armRequest else true
  acquired : next.acquired = camera.acquired

/-- With an image a camera takes no other one. -/
theorem Imaging.turned_of_video
    (imaging : Imaging setup image pos camera.cam)
    {next : CameralinkMaster}
    (isVideo : (camera.cam.stepped val).video = some next)
    (images : Nat → Image) :
    camera.turned images val = some { camera with cam := next } := by
  have notRequested : ¬ Camera.Requested (camera.cam.stepped val) := by
    intro requested
    cases imaging.videoData.symm.trans requested.1
  simp only [Camera.turned, imaging.advanced, Option.bind_eq_bind,
    Option.bind_some, Camera.prepare, notRequested, if_false, isVideo]
  rfl

/-- With an image a camera goes on to the next position. -/
theorem Imaging.turned
    {post : CameralinkMaster → Prop}
    (imaging : Imaging setup image pos camera.cam)
    (small : pos + 1 < 2 ^ 32)
    (video : ∀ cam, Imaging setup image (pos + 1) cam →
      ∃ next, cam.video = some next ∧ post next ∧
        next.armRequest = cam.armRequest)
    (images : Nat → Image)
    (val : BitVec 32) :
    ∃ next, camera.turned images val = some next ∧ post next.cam ∧
      Turned val camera next := by
  have nextPtr : (camera.cam.videoPtr + 1).toNat = pos + 1 := by
    rw [BitVec.toNat_add, imaging.videoPtr]
    exact Nat.mod_eq_of_lt small
  obtain ⟨next, isVideo, holds, sameArm⟩ := video (camera.cam.stepped val)
    ⟨imaging.videoData, imaging.videoWid, imaging.videoMar, imaging.videoHei,
      imaging.videoGap, nextPtr⟩
  exact ⟨{ camera with cam := next }, imaging.turned_of_video isVideo images,
    holds, sameArm, rfl⟩

/-- With an image a camera goes on, wherever its pointer is. -/
theorem Imaging.turned_some
    (imaging : Imaging setup image pos camera.cam)
    (fits : setup.FrameFits image)
    (images : Nat → Image)
    (val : BitVec 32) :
    ∃ next, camera.turned images val = some next ∧
      next.acquired = camera.acquired := by
  have stepped : Imaging setup image (camera.cam.stepped val).videoPtr.toNat
      (camera.cam.stepped val) :=
    ⟨imaging.videoData, imaging.videoWid, imaging.videoMar, imaging.videoHei,
      imaging.videoGap, rfl⟩
  obtain ⟨next, isVideo⟩ := stepped.video_some fits
  exact ⟨{ camera with cam := next }, imaging.turned_of_video isVideo images,
    rfl⟩

/-- The camera takes the next image. -/
theorem Blank.acquires
    (blank : Blank setup cam)
    (atStart : cam.videoPtr = 0)
    (fits : setup.FrameFits image) :
    ∃ next, (({ cam with armRequest := false } :
        CameralinkMaster).loadImageFile image).bind CameralinkMaster.video =
          some next ∧
      Sends setup image 0 next ∧ next.armRequest = false := by
  have size : image.data.length ≤
      (3 * image.width * image.height).toNat := by
    have someHeight := image.someHeight
    have wide : image.width.toNat ≤ image.width.toNat * image.height.toNat :=
      Nat.le_mul_of_pos_right _ someHeight
    have bytes := fits.bytes
    have three : (3 : BitVec 32).toNat = 3 := rfl
    rw [image.complete, BitVec.toNat_mul, BitVec.toNat_mul, three,
      Nat.mod_eq_of_lt (show 3 * image.width.toNat < 2 ^ 32 by omega),
      Nat.mul_assoc, Nat.mod_eq_of_lt bytes]
  rw [CameralinkMaster.loadImageFile, if_pos size, Option.bind_some]
  refine Imaging.sends ?_ fits ?_
  · exact ⟨rfl, rfl, blank.videoMar, rfl, blank.videoGap,
      congrArg BitVec.toNat atStart⟩
  · exact Nat.lt_of_lt_of_le (setup.line_pos image) (setup.line_le_frame image)

/-- Without an image a camera marks time within a line. -/
theorem Blank.video
    (blank : Blank setup cam) :
    ∃ next, cam.video = some next ∧ Blank setup next ∧
      next.armRequest = cam.armRequest ∧ next.videoPtr = cam.videoPtr ∧
      next.frameWidth = cam.frameWidth := by
  rw [CameralinkMaster.video, if_neg blank.someLine]
  simp only [blank.videoData, Option.some.injEq, exists_eq_left']
  exact ⟨⟨rfl, blank.videoMar, blank.videoGap, blank.someLine, rfl⟩, trivial,
    trivial, rfl⟩

/-- A camera without an image that does not take one. -/
structure StaysBlank
    (setup : Setup)
    (val : BitVec 32)
    (camera next : Camera) : Prop where
  blank : Blank setup next.cam
  turned : Turned val camera next
  videoPtr : next.cam.videoPtr = nextBlank camera.cam
  frameWidth : next.cam.frameWidth = camera.cam.frameWidth

theorem Blank.turned_stays
    (blank : Blank setup camera.cam)
    (images : Nat → Image)
    (notRequested : ¬ Camera.Requested (camera.cam.marked val)) :
    ∃ next, camera.turned images val = some next ∧
      StaysBlank setup val camera next := by
  obtain ⟨next, isVideo, blankNext, sameArm, samePtr, sameWidth⟩ :=
    (blank.marked val).video
  refine ⟨{ camera with cam := next }, ?_, blankNext, ⟨sameArm, rfl⟩,
    samePtr, sameWidth⟩
  simp only [Camera.turned, blank.advanced, Option.bind_eq_bind,
    Option.bind_some, Camera.prepare, notRequested, if_false, isVideo]
  rfl

/-- What the camera does with a request. -/
theorem Blank.turned_of_requested
    {next : CameralinkMaster}
    (blank : Blank setup camera.cam)
    (requested : Camera.Requested (camera.cam.marked val))
    (isNext : (({ camera.cam.marked val with armRequest := false } :
      CameralinkMaster).loadImageFile (images camera.acquired)).bind
        CameralinkMaster.video = some next) :
    camera.turned images val =
      some { camera with cam := next, acquired := camera.acquired + 1 } := by
  obtain ⟨loaded, isLoaded, isVideo⟩ := Option.bind_eq_some_iff.mp isNext
  simp only [Camera.turned, blank.advanced, Option.bind_eq_bind,
    Option.bind_some, Camera.prepare, requested, if_true,
    Camera.acquireNextImage, isLoaded, Option.map_some, isVideo]
  rfl

/-- The camera takes an image, and sends its first pixel next. -/
structure Acquires
    (setup : Setup)
    (camera next : Camera) : Prop where
  sends : Sends setup (setup.images camera.acquired) 0 next.cam
  armRequest : next.cam.armRequest = false
  acquired : next.acquired = camera.acquired + 1

theorem Blank.turned_acquires
    (blank : Blank setup camera.cam)
    (fits : setup.FrameFits (setup.images camera.acquired))
    (armed : camera.cam.armRequest = true)
    (requests : val.getLsbD 1 = true)
    (atStart : nextBlank camera.cam = 0) :
    ∃ next, camera.turned setup.images val = some next ∧
      Acquires setup camera next := by
  have stillArmed : (camera.cam.marked val).armRequest = true :=
    (if_pos requests).trans armed
  obtain ⟨next, isNext, sends, disarmed⟩ :=
    (blank.marked val).acquires atStart fits
  exact ⟨_, blank.turned_of_requested
    ⟨blank.videoData, stillArmed, requests, atStart⟩ isNext, sends, disarmed,
    rfl⟩

end Camera

/-! ## The capture program -/

/-- The file of an image. -/
def Setup.file (setup : Setup) (seq : Nat) : Ppm where
  seq := seq
  width := (setup.images seq).width
  height := (setup.images seq).height
  data := (setup.images seq).data

/-- The files of the first images. -/
def Setup.files (setup : Setup) (done : Nat) : List Ppm :=
  (List.range done).map setup.file

section Capture

variable {setup : Setup}
variable {image : Image}
variable {cam : CameralinkMaster}
variable {pos done : Nat}
variable {capture : Capture}

/-- What the capture program makes of the outputs of the camera at an edge. -/
def Capture.turned
    (cam : CameralinkMaster)
    (capture : Capture) : Option Capture :=
  Capture.process { capture with cap := capture.cap.receive cam.outBits }

/-- The capture program has written some images. -/
structure Written
    (setup : Setup)
    (done : Nat)
    (capture : Capture) : Prop where
  videoArea : capture.cap.videoArea = setup.videoArea
  captureSeq : capture.captureSeq = done
  files : capture.files = setup.files done

/-- The capture program has nothing of the next image. -/
structure Waiting
    (setup : Setup)
    (done : Nat)
    (capture : Capture) : Prop extends Written setup done capture where
  videoPtr : capture.cap.videoPtr = 0
  videoWid : capture.cap.videoWid = 0

/-- The capture program has got the positions of an image before this one. -/
structure Receiving
    (setup : Setup)
    (image : Image)
    (done pos : Nat)
    (capture : Capture) : Prop extends Written setup done capture where
  videoPtr : capture.cap.videoPtr.toNat =
    pixelsBefore (setup.line image) image.width.toNat pos
  videoWid : capture.cap.videoWid =
    if pos ≤ image.width.toNat then 0 else image.width
  bytes : ∀ place < 3 * capture.cap.videoPtr.toNat,
    capture.cap.videoData place = image.data.getD place 0

/-- What the capture program has seen of the camera, and asks for. -/
structure Seen
    (frame : Bool)
    (capture : Capture) : Prop where
  fvv : capture.cap.fvv = frame
  camRequest : capture.cap.camRequest = !frame

theorem Waiting.receiving
    (waiting : Waiting setup done capture)
    (image : Image) :
    Receiving setup image done 0 capture where
  videoArea := waiting.videoArea
  captureSeq := waiting.captureSeq
  files := waiting.files
  videoPtr := by
    rw [waiting.videoPtr, pixelsBefore_zero]
    rfl
  videoWid := by
    rw [if_pos (Nat.zero_le _)]
    exact waiting.videoWid
  bytes := by
    rw [waiting.videoPtr]
    exact fun place inside => (Nat.not_lt_zero place inside).elim

/-- Without an image the capture program asks for one. -/
theorem Waiting.turned
    (waiting : Waiting setup done capture)
    (blank : cam.fvv = false) :
    ∃ next, capture.turned cam = some next ∧ Waiting setup done next ∧
      Seen false next := by
  rw [Capture.turned, receive_outBits, Capture.process]
  simp only [blank, Bool.false_eq_true, false_and, if_false, waiting.videoPtr,
    ne_eq, not_true_eq_false, and_false, Option.some.injEq, exists_eq_left']
  exact ⟨⟨⟨waiting.videoArea, waiting.captureSeq, waiting.files⟩, rfl,
    waiting.videoWid⟩, rfl, rfl⟩

/-- A pixel is stored behind the ones before it. -/
theorem storePixel_receiving
    {cap : CameralinkCapture}
    (fits : setup.FrameFits image)
    (room : image.width.toNat * image.height.toNat ≤ cap.videoArea)
    (inside : cap.videoPtr.toNat < image.width.toNat * image.height.toNat) :
    ∃ next, cap.storePixel = some next ∧
      next.videoPtr.toNat = cap.videoPtr.toNat + 1 ∧
      next.videoWid = cap.videoWid ∧ next.videoArea = cap.videoArea ∧
      next.fvv = cap.fvv ∧ next.camRequest = cap.camRequest ∧
      (∀ place < 3 * cap.videoPtr.toNat,
        next.videoData place = cap.videoData place) ∧
      next.videoData (3 * cap.videoPtr.toNat) = cap.red ∧
      next.videoData (3 * cap.videoPtr.toNat + 1) = cap.green ∧
      next.videoData (3 * cap.videoPtr.toNat + 2) = cap.blue := by
  have bytes := fits.bytes
  have pix : (3 * cap.videoPtr).toNat = 3 * cap.videoPtr.toNat := by
    rw [BitVec.toNat_mul]
    exact Nat.mod_eq_of_lt (show 3 * cap.videoPtr.toNat < 2 ^ 32 by omega)
  have nextPtr : (cap.videoPtr + 1).toNat = cap.videoPtr.toNat + 1 := by
    rw [BitVec.toNat_add]
    exact Nat.mod_eq_of_lt (show cap.videoPtr.toNat + 1 < 2 ^ 32 by omega)
  have stores : 3 * cap.videoPtr.toNat + 3 ≤ 3 * cap.videoArea := by omega
  simp only [CameralinkCapture.storePixel, pix, stores, if_true,
    Option.some.injEq, exists_eq_left', nextPtr, true_and]
  refine ⟨fun place before => ?_, ?_, ?_⟩
  · rw [if_neg (by omega), if_neg (by omega), if_neg (by omega)]
  · rw [if_neg (by omega)]
  · rw [if_neg (by omega), if_neg (by omega)]

/-- Bytes that are stored behind the ones before them. -/
theorem bytes_append
    {count : Nat}
    {stored before : Nat → Byte}
    {data : List Byte}
    (prior : ∀ place < 3 * count, before place = data.getD place 0)
    (same : ∀ place < 3 * count, stored place = before place)
    (first : stored (3 * count) = data.getD (3 * count) 0)
    (second : stored (3 * count + 1) = data.getD (3 * count + 1) 0)
    (third : stored (3 * count + 2) = data.getD (3 * count + 2) 0) :
    ∀ place < 3 * (count + 1), stored place = data.getD place 0 := by
  intro place inside
  rcases Nat.lt_or_ge place (3 * count) with old | new
  · rw [same place old, prior place old]
  · obtain rfl | rfl | rfl : place = 3 * count ∨ place = 3 * count + 1 ∨
        place = 3 * count + 2 := by
      omega
    · exact first
    · exact second
    · exact third

theorem ne_zero_of_pos
    {number : BitVec 32}
    (positive : 0 < number.toNat) :
    number ≠ 0 := by
  rintro rfl
  exact Nat.lt_irrefl 0 positive

/-- The width is measured in the margin of the first line. -/
theorem Receiving.measure
    (receiving : Receiving setup image done pos capture)
    (beyond : image.width.toNat ≤ pos % setup.line image) :
    (if capture.cap.videoWid = 0 then capture.cap.videoPtr
      else capture.cap.videoWid) = image.width := by
  have after : image.width.toNat ≤ pos :=
    Nat.le_trans beyond (Nat.mod_le pos _)
  have someWidth := ne_zero_of_pos image.someWidth
  rw [receiving.videoWid]
  by_cases first : pos ≤ image.width.toNat
  · obtain rfl : pos = image.width.toNat := Nat.le_antisymm first after
    have inLine := setup.width_lt_line image
    rw [if_pos first, if_pos rfl]
    apply BitVec.eq_of_toNat_eq
    rw [receiving.videoPtr, pixelsBefore, Nat.div_eq_of_lt inLine,
      Nat.mod_eq_of_lt inLine, Nat.zero_mul, Nat.zero_add, Nat.min_self]
  · rw [if_neg first, if_neg someWidth]

/-- In a line the width is not measured. -/
theorem Receiving.videoWid_inLine
    (receiving : Receiving setup image done pos capture)
    (inLine : pos % setup.line image < image.width.toNat) :
    capture.cap.videoWid =
      if pos + 1 ≤ image.width.toNat then 0 else image.width := by
  have notEnd : pos ≠ image.width.toNat := by
    rintro rfl
    rw [Nat.mod_eq_of_lt (setup.width_lt_line image)] at inLine
    exact Nat.lt_irrefl _ inLine
  rw [receiving.videoWid]
  by_cases first : pos ≤ image.width.toNat
  · have before : pos + 1 ≤ image.width.toNat :=
      Nat.lt_of_le_of_ne first notEnd
    rw [if_pos first, if_pos before]
  · rw [if_neg first, if_neg (by omega)]

/-- The capture program gets a pixel, or measures the width in a margin. -/
theorem Receiving.turned
    (receiving : Receiving setup image done pos capture)
    (sends : Sends setup image pos cam)
    (fits : setup.FrameFits image)
    (room : image.width.toNat * image.height.toNat ≤ setup.videoArea)
    (inside : pos < setup.frame image) :
    ∃ next, capture.turned cam = some next ∧
      Receiving setup image done (pos + 1) next ∧ Seen true next := by
  have margin := setup.width_lt_line image
  rw [Capture.turned, receive_outBits, Capture.process]
  by_cases inLine : pos % setup.line image < image.width.toNat
  · have lvv : cam.lvv = true := sends.lvv.trans (decide_eq_true inLine)
    have pixels := pixelsBefore_lt margin inLine inside
    obtain ⟨_, another⟩ := pixelsBefore_pixel margin inLine
    obtain ⟨red, green, blue⟩ := sends.pixel inLine
    simp only [sends.fvv, lvv, sends.vce, and_self, if_true, Bool.not_true]
    rw [← receiving.videoPtr] at pixels red green blue another
    obtain ⟨next, stored, nextPtr, sameWid, sameArea, fvv, camRequest, before,
      first, second, third⟩ := @storePixel_receiving setup image
        { capture.cap with
          red := cam.red
          green := cam.green
          blue := cam.blue
          vce := true
          lvv := true
          fvv := true
          camRequest := false } fits
        (Nat.le_trans room (Nat.le_of_eq receiving.videoArea.symm)) pixels
    refine ⟨{ capture with cap := next }, ?_, ?_, fvv, camRequest⟩
    · rw [stored]
      rfl
    · exact
        { videoArea := sameArea.trans receiving.videoArea
          captureSeq := receiving.captureSeq
          files := receiving.files
          videoPtr := nextPtr.trans another.symm
          videoWid := sameWid.trans (receiving.videoWid_inLine inLine)
          bytes := by
            rw [nextPtr]
            exact bytes_append receiving.bytes before (first.trans red)
              (second.trans green) (third.trans blue) }
  · have beyond := Nat.le_of_not_lt inLine
    have lvv : cam.lvv = false := sends.lvv.trans (decide_eq_false inLine)
    have after : ¬ pos + 1 ≤ image.width.toNat :=
      Nat.not_le_of_gt (Nat.lt_succ_of_le
        (Nat.le_trans beyond (Nat.mod_le pos _)))
    simp only [sends.fvv, lvv, Bool.false_eq_true, false_and, and_false,
      if_false, not_false_eq_true, and_self, if_true, Option.some.injEq,
      exists_eq_left']
    refine ⟨⟨⟨receiving.videoArea, receiving.captureSeq, receiving.files⟩,
      ?_, ?_, receiving.bytes⟩, rfl, rfl⟩
    · rw [pixelsBefore_margin margin beyond]
      exact receiving.videoPtr
    · rw [if_neg after]
      exact receiving.measure beyond

/-- The bytes of an image. -/
theorem data_of_bytes
    {image : Image}
    {stored : Nat → Byte}
    (bytes : ∀ place < 3 * (image.width.toNat * image.height.toNat),
      stored place = image.data.getD place 0) :
    (List.range (3 * (image.width.toNat * image.height.toNat))).map stored =
      image.data := by
  apply List.ext_getElem
  · rw [List.length_map, List.length_range, image.complete]
  · intro place inside _
    rw [List.length_map, List.length_range] at inside
    rw [List.getElem_map, List.getElem_range, bytes place inside]
    exact (List.getElem_eq_getD 0).symm

/-- After an image the capture program writes it to its file. -/
theorem Receiving.writes
    (receiving : Receiving setup (setup.images done) done
      (setup.frame (setup.images done)) capture)
    (fits : setup.FrameFits (setup.images done))
    (blank : cam.fvv = false) :
    ∃ next, capture.turned cam = some next ∧ Waiting setup (done + 1) next ∧
      Seen false next := by
  have someWidth := (setup.images done).someWidth
  have someHeight := (setup.images done).someHeight
  have bytes := fits.bytes
  have wide : (setup.images done).width.toNat ≤
      (setup.images done).width.toNat * (setup.images done).height.toNat :=
    Nat.le_mul_of_pos_right _ someHeight
  have isPtr : capture.cap.videoPtr.toNat =
      (setup.images done).width.toNat * (setup.images done).height.toNat := by
    rw [receiving.videoPtr, Setup.frame,
      pixelsBefore_lines (setup.line_pos _)]
  have somePixels : capture.cap.videoPtr ≠ 0 :=
    ne_zero_of_pos (isPtr ▸ Nat.mul_pos someWidth someHeight)
  have isWid : capture.cap.videoWid = (setup.images done).width := by
    have beyond := Nat.lt_of_lt_of_le (setup.width_lt_line _)
      (setup.line_le_frame (setup.images done))
    rw [receiving.videoWid, if_neg (Nat.not_le_of_lt beyond)]
  have isHei : capture.cap.videoPtr / (setup.images done).width =
      (setup.images done).height := by
    apply BitVec.eq_of_toNat_eq
    rw [BitVec.toNat_udiv, isPtr, Nat.mul_div_cancel_left _ someWidth]
  have isSize : (3 * (setup.images done).width *
      (setup.images done).height).toNat =
        3 * ((setup.images done).width.toNat *
          (setup.images done).height.toNat) := by
    have three : (3 : BitVec 32).toNat = 3 := rfl
    rw [BitVec.toNat_mul, BitVec.toNat_mul, three,
      Nat.mod_eq_of_lt (show 3 * (setup.images done).width.toNat < 2 ^ 32 by
        omega), Nat.mul_assoc, Nat.mod_eq_of_lt bytes]
  have isData := data_of_bytes fun place inside =>
    receiving.bytes place (isPtr ▸ inside)
  rw [Capture.turned, receive_outBits, Capture.process]
  simp only [blank, Bool.false_eq_true, false_and, if_false, somePixels, ne_eq,
    not_false_eq_true, and_self, if_true, Option.some.injEq, exists_eq_left',
    Capture.writeImage, CameralinkCapture.measure, isWid,
    ne_zero_of_pos someWidth, isHei, isSize, isData]
  refine ⟨⟨⟨receiving.videoArea, ?_, ?_⟩, rfl, rfl⟩, rfl, rfl⟩
  · exact congrArg Nat.succ receiving.captureSeq
  · rw [receiving.files, receiving.captureSeq, Setup.files, Setup.files,
      List.range_succ, List.map_append]
    rfl

end Capture

end Simbus.P2p.Cameralink
