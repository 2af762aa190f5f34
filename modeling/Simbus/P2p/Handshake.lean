import Simbus.P2p.Frames

/-!
# The handshake of the camera and the capture program

Both programs go from one edge of the clock to the next one together.  The
request of the capture program and the signals of the camera are an edge late,
and between two edges the programs are in one of four phases.
-/

namespace Simbus.P2p.Cameralink

/-- Both programs between two edges, with their outputs prepared. -/
structure Programs where
  camera : Camera
  capture : Capture

/-- Both programs before their first edge. -/
def Setup.programs (setup : Setup) : Programs where
  camera :=
    { cam := .init setup.useWid setup.useMar setup.useGap
      curClock := clockRun
      acquired := 0 }
  capture :=
    { cap := .init setup.videoArea setup.videoData
      captureSeq := 0
      files := [] }

/-- What both programs do at an edge, with the outputs of each other. -/
def Programs.turn
    (images : Nat → Image)
    (programs : Programs) : Option Programs := do
  let camera ← programs.camera.turned images programs.capture.cap.outBits
  let capture ← programs.capture.turned programs.camera.cam
  return { camera := camera, capture := capture }

/--
Up to the last image the counters of both programs do not overflow, and what the
camera sends in the margins can be read.
-/
structure Setup.Fits (setup : Setup) : Prop where
  blankLine : 0 < setup.captureCount → setup.useWid + setup.useMar ≠ 0
  frames : ∀ seq : Nat, (seq : Int) < setup.captureCount →
    setup.FrameFits (setup.images seq)
  gaps : ∀ seq : Nat, (seq : Int) + 1 < setup.captureCount →
    setup.period (setup.images seq) < 2 ^ 32

section Phases

variable {setup : Setup}
variable {programs : Programs}
variable {done pos : Nat}

/-! ## Phases -/

/-- The camera has no image. -/
structure Idle
    (setup : Setup)
    (done : Nat)
    (programs : Programs) : Prop where
  blank : Blank setup programs.camera.cam
  acquired : programs.camera.acquired = done
  armed : programs.capture.cap.camRequest = true →
    programs.camera.cam.armRequest = true
  waiting : Waiting setup done programs.capture

/-- The camera sends an image. -/
structure Sending
    (setup : Setup)
    (done pos : Nat)
    (programs : Programs) : Prop where
  inside : pos < setup.frame (setup.images done)
  sends : Sends setup (setup.images done) pos programs.camera.cam
  acquired : programs.camera.acquired = done + 1
  armed : 2 ≤ pos → programs.camera.cam.armRequest = true
  receiving : Receiving setup (setup.images done) done pos programs.capture
  lowered : 0 < pos → programs.capture.cap.camRequest = false

/-- The camera has sent an image that the capture program has not written. -/
structure Sent
    (setup : Setup)
    (done : Nat)
    (programs : Programs) : Prop where
  inGap : InGap setup (setup.images done) (setup.frame (setup.images done))
    programs.camera.cam
  acquired : programs.camera.acquired = done + 1
  armed : programs.camera.cam.armRequest = true
  receiving : Receiving setup (setup.images done) done
    (setup.frame (setup.images done)) programs.capture

/-- The camera is in the gap after an image that has been written. -/
structure Pause
    (setup : Setup)
    (done pos : Nat)
    (programs : Programs) : Prop where
  after : setup.frame (setup.images done) ≤ pos
  inside : pos < setup.period (setup.images done)
  inGap : InGap setup (setup.images done) pos programs.camera.cam
  acquired : programs.camera.acquired = done + 1
  armed : programs.camera.cam.armRequest = true
  waiting : Waiting setup (done + 1) programs.capture

/-- A phase in which some images have been written. -/
inductive Phase (setup : Setup) : Nat → Programs → Prop where
  | idle {done : Nat} {programs : Programs} :
      Idle setup done programs → Phase setup done programs
  | sending {done pos : Nat} {programs : Programs} :
      Sending setup done pos programs → Phase setup done programs
  | sent {done : Nat} {programs : Programs} :
      Sent setup done programs → Phase setup done programs
  | pause {done pos : Nat} {programs : Programs} :
      Pause setup done pos programs → Phase setup (done + 1) programs

/-- The capture program has written images of those that were acquired. -/
structure Consistent
    (setup : Setup)
    (done : Nat)
    (programs : Programs) : Prop where
  written : Written setup done programs.capture
  fromCamera : done ≤ programs.camera.acquired
  atMostOne : programs.camera.acquired ≤ done + 1

theorem Phase.consistent
    (phase : Phase setup done programs) :
    Consistent setup done programs := by
  cases phase with
  | idle idle =>
      exact ⟨idle.waiting.toWritten, idle.acquired ▸ Nat.le_refl _,
        idle.acquired ▸ Nat.le_succ _⟩
  | sending sending =>
      exact ⟨sending.receiving.toWritten, sending.acquired ▸ Nat.le_succ _,
        sending.acquired ▸ Nat.le_refl _⟩
  | sent sent =>
      exact ⟨sent.receiving.toWritten, sent.acquired ▸ Nat.le_succ _,
        sent.acquired ▸ Nat.le_refl _⟩
  | pause pause =>
      exact ⟨pause.waiting.toWritten, pause.acquired ▸ Nat.le_refl _,
        pause.acquired ▸ Nat.le_succ _⟩

theorem Setup.consistent (setup : Setup) :
    Consistent setup 0 setup.programs where
  written := ⟨rfl, rfl, rfl⟩
  fromCamera := Nat.le_refl 0
  atMostOne := Nat.zero_le 1

/-- At first there is no image. -/
theorem Setup.idle
    (someLine : setup.useWid + setup.useMar ≠ 0) :
    Idle setup 0 setup.programs where
  blank := ⟨rfl, rfl, rfl, someLine, rfl⟩
  acquired := rfl
  armed := nofun
  waiting := ⟨⟨rfl, rfl, rfl⟩, rfl, rfl⟩

/-! ## Edges -/

/-- An edge of both programs is one of each of them. -/
theorem turn_eq
    {camera : Camera}
    {capture : Capture}
    (cameraTurned : programs.camera.turned setup.images
      programs.capture.cap.outBits = some camera)
    (captureTurned : programs.capture.turned programs.camera.cam =
      some capture) :
    programs.turn setup.images = some ⟨camera, capture⟩ := by
  rw [Programs.turn, cameraTurned, captureTurned]
  rfl

/-- A camera without a request, or within a line, stays without an image. -/
theorem Idle.stays
    (idle : Idle setup done programs)
    (waits : programs.capture.cap.camRequest = false ∨
      nextBlank programs.camera.cam ≠ 0) :
    ∃ next, programs.turn setup.images = some next ∧ Idle setup done next ∧
      next.capture.cap.camRequest = true ∧
      next.camera.cam.videoPtr = nextBlank programs.camera.cam ∧
      next.camera.cam.frameWidth = programs.camera.cam.frameWidth := by
  obtain ⟨request, _⟩ := outBits_request programs.capture.cap
  obtain ⟨camera, cameraTurned, stays⟩ :=
    idle.blank.turned_stays setup.images (not_requested (request ▸ waits))
  obtain ⟨capture, captureTurned, waiting, seen⟩ :=
    idle.waiting.turned idle.blank.fvv
  refine ⟨⟨camera, capture⟩, turn_eq cameraTurned captureTurned, ?_,
    seen.camRequest, stays.videoPtr, stays.frameWidth⟩
  refine ⟨stays.blank, stays.turned.acquired.trans idle.acquired, ?_, waiting⟩
  intro _
  rw [stays.turned.armRequest, request]
  split
  · rename_i requests
    exact idle.armed requests
  · rfl

/-- At the start of a line the camera takes the next image. -/
theorem Idle.acquires
    (idle : Idle setup done programs)
    (fits : setup.FrameFits (setup.images done))
    (requests : programs.capture.cap.camRequest = true)
    (atStart : nextBlank programs.camera.cam = 0) :
    ∃ next, programs.turn setup.images = some next ∧
      Sending setup done 0 next := by
  obtain ⟨request, _⟩ := outBits_request programs.capture.cap
  obtain ⟨camera, cameraTurned, acquires⟩ := idle.blank.turned_acquires
    (idle.acquired.symm ▸ fits) (idle.armed requests)
    (request.trans requests) atStart
  obtain ⟨capture, captureTurned, waiting, _⟩ :=
    idle.waiting.turned idle.blank.fvv
  refine ⟨⟨camera, capture⟩, turn_eq cameraTurned captureTurned, ?_⟩
  have sends := acquires.sends
  rw [idle.acquired] at sends
  have some : 0 < setup.frame (setup.images done) :=
    Nat.lt_of_lt_of_le (setup.line_pos _) (setup.line_le_frame _)
  exact
    { inside := some
      sends := sends
      acquired := by rw [acquires.acquired, idle.acquired]
      armed := fun later => absurd later (by decide)
      receiving := waiting.receiving _
      lowered := fun later => absurd later (Nat.lt_irrefl 0) }

/-- The next request is armed once the capture program has lowered this one. -/
theorem Sending.arms
    (sending : Sending setup done pos programs)
    {camera : Camera}
    (turned : Turned programs.capture.cap.outBits programs.camera camera)
    (later : 2 ≤ pos + 1) :
    camera.cam.armRequest = true := by
  have lowered := sending.lowered (Nat.le_of_succ_le_succ later)
  rw [turned.armRequest, (outBits_request _).1, lowered]
  rfl

/-- A position of an image is sent and received. -/
theorem Sending.turn
    (sending : Sending setup done pos programs)
    (fits : setup.FrameFits (setup.images done)) :
    ∃ next, programs.turn setup.images = some next ∧
      (Sending setup done (pos + 1) next ∨
        pos + 1 = setup.frame (setup.images done) ∧
          Sent setup done next ∧ next.capture.cap.fvv = true) := by
  obtain ⟨capture, captureTurned, receiving, seen⟩ :=
    sending.receiving.turned sending.sends fits (setup.room done)
      sending.inside
  have small : pos + 1 < 2 ^ 32 :=
    Nat.lt_of_le_of_lt sending.inside fits.positions
  rcases Nat.lt_or_eq_of_le (Nat.succ_le_of_lt sending.inside) with
    more | last
  · obtain ⟨camera, cameraTurned, sends, turned⟩ :=
      sending.sends.toImaging.turned small
        (fun cam imaging => imaging.sends fits more) setup.images
        programs.capture.cap.outBits
    refine ⟨⟨camera, capture⟩, turn_eq cameraTurned captureTurned, .inl ?_⟩
    exact
      { inside := more
        sends := sends
        acquired := turned.acquired.trans sending.acquired
        armed := sending.arms turned
        receiving := receiving
        lowered := fun _ => seen.camRequest }
  · have inside : pos + 1 < setup.period (setup.images done) := by
      have gap := setup.frame_lt_period (setup.images done)
      omega
    obtain ⟨camera, cameraTurned, inGap, turned⟩ :=
      sending.sends.toImaging.turned small
        (fun cam imaging => imaging.inGap fits (Nat.le_of_eq last.symm) inside)
        setup.images programs.capture.cap.outBits
    refine ⟨⟨camera, capture⟩, turn_eq cameraTurned captureTurned,
      .inr ⟨last, ?_, seen.fvv⟩⟩
    have later : 2 ≤ pos + 1 := by
      have two := setup.two_le_line (setup.images done)
      have line := setup.line_le_frame (setup.images done)
      omega
    rw [Nat.succ_eq_add_one] at last
    exact
      { inGap := last ▸ inGap
        acquired := turned.acquired.trans sending.acquired
        armed := sending.arms turned later
        receiving := last ▸ receiving }

/-- After an edge the capture program has written the image. -/
structure Wrote
    (setup : Setup)
    (done : Nat)
    (programs : Programs) : Prop where
  consistent : Consistent setup (done + 1) programs
  fvv : programs.capture.cap.fvv = false
  pause : (done : Int) + 1 < setup.captureCount →
    Pause setup done (setup.frame (setup.images done) + 1) programs

/-- In the gap the image is written. -/
theorem Sent.turn
    (sent : Sent setup done programs)
    (fits : setup.Fits)
    (more : (done : Int) < setup.captureCount) :
    ∃ next, programs.turn setup.images = some next ∧
      Wrote setup done next := by
  have frame := fits.frames done more
  obtain ⟨capture, captureTurned, waiting, seen⟩ :=
    sent.receiving.writes frame sent.inGap.fvv
  obtain ⟨camera, cameraTurned, acquired⟩ :=
    sent.inGap.toImaging.turned_some frame setup.images
      programs.capture.cap.outBits
  refine ⟨⟨camera, capture⟩, turn_eq cameraTurned captureTurned, ?_, seen.fvv,
    fun another => ?_⟩
  · have isAcquired : camera.acquired = done + 1 :=
      acquired.trans sent.acquired
    exact ⟨waiting.toWritten, Nat.le_of_eq isAcquired.symm,
      Nat.le_trans (Nat.le_of_eq isAcquired) (Nat.le_succ _)⟩
  · have gap := setup.frame_lt_period (setup.images done)
    have small := fits.gaps done another
    obtain ⟨other, otherTurned, inGap, turned⟩ :=
      sent.inGap.toImaging.turned (by omega)
        (fun cam imaging => imaging.inGap frame (Nat.le_succ _) gap)
        setup.images programs.capture.cap.outBits
    obtain rfl := Option.some.inj (cameraTurned.symm.trans otherTurned)
    refine ⟨Nat.le_succ _, gap, inGap, acquired.trans sent.acquired, ?_,
      waiting⟩
    rw [turned.armRequest, sent.armed, ite_self]

/-- The gap after an image ends in a blank line. -/
theorem Pause.turn
    (pause : Pause setup done pos programs)
    (fits : setup.FrameFits (setup.images done))
    (small : setup.period (setup.images done) < 2 ^ 32) :
    ∃ next, programs.turn setup.images = some next ∧
      (Pause setup done (pos + 1) next ∨
        pos + 1 = setup.period (setup.images done) ∧
          Idle setup (done + 1) next ∧
          next.capture.cap.camRequest = true) := by
  obtain ⟨capture, captureTurned, waiting, seen⟩ :=
    pause.waiting.turned pause.inGap.fvv
  have nextSmall : pos + 1 < 2 ^ 32 := Nat.lt_of_le_of_lt pause.inside small
  rcases Nat.lt_or_eq_of_le (Nat.succ_le_of_lt pause.inside) with more | last
  · have after := Nat.le_succ_of_le pause.after
    obtain ⟨camera, cameraTurned, inGap, turned⟩ :=
      pause.inGap.toImaging.turned nextSmall
        (fun cam imaging => imaging.inGap fits after more) setup.images
        programs.capture.cap.outBits
    refine ⟨⟨camera, capture⟩, turn_eq cameraTurned captureTurned, .inl ?_⟩
    refine ⟨after, more, inGap, turned.acquired.trans pause.acquired, ?_,
      waiting⟩
    rw [turned.armRequest, pause.armed, ite_self]
  · obtain ⟨camera, cameraTurned, blank, turned⟩ :=
      pause.inGap.toImaging.turned nextSmall
        (fun cam imaging => imaging.clears fits (Nat.le_of_eq last.symm))
        setup.images programs.capture.cap.outBits
    refine ⟨⟨camera, capture⟩, turn_eq cameraTurned captureTurned,
      .inr ⟨last, ?_, seen.camRequest⟩⟩
    refine ⟨blank, turned.acquired.trans pause.acquired, fun _ => ?_, waiting⟩
    rw [turned.armRequest, pause.armed, ite_self]

/-- The programs stay in a phase of an image, or write it. -/
theorem Phase.turn
    (phase : Phase setup done programs)
    (fits : setup.Fits)
    (more : (done : Int) < setup.captureCount) :
    ∃ next, programs.turn setup.images = some next ∧
      (Phase setup done next ∨ Wrote setup done next) := by
  cases phase with
  | idle idle =>
      by_cases takes : programs.capture.cap.camRequest = true ∧
          nextBlank programs.camera.cam = 0
      · obtain ⟨next, turned, sending⟩ :=
          idle.acquires (fits.frames done more) takes.1 takes.2
        exact ⟨next, turned, .inl (.sending sending)⟩
      · obtain ⟨next, turned, stillIdle, _⟩ := idle.stays (by grind)
        exact ⟨next, turned, .inl (.idle stillIdle)⟩
  | sending sending =>
      obtain ⟨next, turned, sending | ⟨_, sent, _⟩⟩ :=
        sending.turn (fits.frames done more)
      · exact ⟨next, turned, .inl (.sending sending)⟩
      · exact ⟨next, turned, .inl (.sent sent)⟩
  | sent sent =>
      obtain ⟨next, turned, wrote⟩ := sent.turn fits more
      exact ⟨next, turned, .inr wrote⟩
  | @pause image _ _ pause =>
      have another : (image : Int) + 1 < setup.captureCount := by
        rwa [Nat.cast_add_one] at more
      obtain ⟨next, turned, pause | ⟨_, idle, _⟩⟩ := pause.turn
        (fits.frames image (Int.lt_trans (Int.lt_succ _) another))
        (fits.gaps image another)
      · exact ⟨next, turned, .inl (.pause pause)⟩
      · exact ⟨next, turned, .inl (.idle idle)⟩

/-! ## Progress -/

/-- The programs get through the phases of an image until it is written. -/
inductive Leads (setup : Setup) (done : Nat) : Programs → Prop where
  | wrote {programs next : Programs} :
      programs.turn setup.images = some next → Wrote setup done next →
        Leads setup done programs
  | later {programs next : Programs} :
      programs.turn setup.images = some next → Phase setup done next →
        Leads setup done next → Leads setup done programs

theorem Sent.leads
    (sent : Sent setup done programs)
    (fits : setup.Fits)
    (more : (done : Int) < setup.captureCount) :
    Leads setup done programs := by
  obtain ⟨_, turned, wrote⟩ := sent.turn fits more
  exact .wrote turned wrote

/-- The positions of an image come to an end. -/
theorem Sending.leads
    (sending : Sending setup done pos programs)
    (fits : setup.Fits)
    (more : (done : Int) < setup.captureCount) :
    Leads setup done programs := by
  obtain ⟨left, isLeft⟩ := Nat.le.dest (Nat.le_of_lt sending.inside)
  induction left generalizing pos programs with
  | zero =>
      exact (Nat.lt_irrefl _ (isLeft ▸ sending.inside)).elim
  | succ left inductionHypothesis =>
      obtain ⟨next, turned, sending | ⟨_, sent, _⟩⟩ :=
        sending.turn (fits.frames done more)
      · exact .later turned (.sending sending)
          (inductionHypothesis sending (by omega))
      · exact .later turned (.sent sent) (sent.leads fits more)

/-- Without an image the pointer stays within a line. -/
theorem nextBlank_lt
    {cam : CameralinkMaster}
    (someLine : cam.frameWidth ≠ 0) :
    (nextBlank cam).toNat < cam.frameWidth.toNat := by
  rw [nextBlank, BitVec.toNat_umod]
  apply Nat.mod_lt
  rw [Nat.pos_iff_ne_zero]
  exact fun isZero => someLine (BitVec.eq_of_toNat_eq isZero)

/-- The pointer comes to the start of a line. -/
theorem nextBlank_closer
    {cam next : CameralinkMaster}
    {left : Nat}
    (videoPtr : next.videoPtr = nextBlank cam)
    (frameWidth : next.frameWidth = cam.frameWidth)
    (someLine : cam.frameWidth ≠ 0)
    (near : cam.frameWidth.toNat ≤ (nextBlank cam).toNat + (left + 1)) :
    nextBlank next = 0 ∨
      next.frameWidth.toNat ≤ (nextBlank next).toNat + left := by
  have inLine := nextBlank_lt someLine
  have isNext : (nextBlank next).toNat =
      ((nextBlank cam).toNat + 1) % cam.frameWidth.toNat := by
    have width := cam.frameWidth.isLt
    rw [nextBlank, BitVec.toNat_umod, BitVec.toNat_add, videoPtr, frameWidth]
    exact congrArg (· % cam.frameWidth.toNat) (Nat.mod_eq_of_lt
      (Nat.lt_of_le_of_lt inLine width))
  rw [frameWidth, isNext]
  rcases Nat.lt_or_eq_of_le (Nat.succ_le_of_lt inLine) with same | last
  · rw [Nat.mod_eq_of_lt same]
    omega
  · left
    apply BitVec.eq_of_toNat_eq
    rw [isNext, show (nextBlank cam).toNat + 1 = cam.frameWidth.toNat from last,
      Nat.mod_self]
    rfl

/-- A requested image is taken at the start of the next line. -/
theorem Idle.leads_of_request
    (idle : Idle setup done programs)
    (requests : programs.capture.cap.camRequest = true)
    (fits : setup.Fits)
    (more : (done : Int) < setup.captureCount) :
    Leads setup done programs := by
  obtain ⟨left, near⟩ : ∃ left, nextBlank programs.camera.cam = 0 ∨
      programs.camera.cam.frameWidth.toNat ≤
        (nextBlank programs.camera.cam).toNat + left :=
    ⟨_, .inr (Nat.le_add_left _ _)⟩
  induction left generalizing programs with
  | zero =>
      have inLine := nextBlank_lt idle.blank.someLine
      have atStart := near.resolve_right (Nat.not_le_of_lt inLine)
      obtain ⟨next, turned, sending⟩ :=
        idle.acquires (fits.frames done more) requests atStart
      exact .later turned (.sending sending) (sending.leads fits more)
  | succ left inductionHypothesis =>
      by_cases atStart : nextBlank programs.camera.cam = 0
      · obtain ⟨next, turned, sending⟩ :=
          idle.acquires (fits.frames done more) requests atStart
        exact .later turned (.sending sending) (sending.leads fits more)
      · obtain ⟨next, turned, stillIdle, stillRequests, videoPtr, frameWidth⟩ :=
          idle.stays (.inr atStart)
        have closer := nextBlank_closer videoPtr frameWidth idle.blank.someLine
          (near.resolve_left atStart)
        exact .later turned (.idle stillIdle)
          (inductionHypothesis stillIdle stillRequests closer)

/-- The first request is an edge late. -/
theorem Idle.leads
    (idle : Idle setup done programs)
    (fits : setup.Fits)
    (more : (done : Int) < setup.captureCount) :
    Leads setup done programs := by
  cases requests : programs.capture.cap.camRequest with
  | true =>
      exact idle.leads_of_request requests fits more
  | false =>
      obtain ⟨next, turned, stillIdle, requests, _⟩ := idle.stays (.inl requests)
      exact .later turned (.idle stillIdle)
        (stillIdle.leads_of_request requests fits more)

/-- The gap after an image comes to an end. -/
theorem Pause.leads
    (pause : Pause setup done pos programs)
    (fits : setup.Fits)
    (more : ((done + 1 : Nat) : Int) < setup.captureCount) :
    Leads setup (done + 1) programs := by
  have another : (done : Int) + 1 < setup.captureCount := by
    rwa [Nat.cast_add_one] at more
  have frame := fits.frames done (Int.lt_trans (Int.lt_succ _) another)
  obtain ⟨left, isLeft⟩ := Nat.le.dest (Nat.le_of_lt pause.inside)
  induction left generalizing pos programs with
  | zero =>
      exact (Nat.lt_irrefl _ (isLeft ▸ pause.inside)).elim
  | succ left inductionHypothesis =>
      obtain ⟨next, turned, pause | ⟨_, idle, requests⟩⟩ :=
        pause.turn frame (fits.gaps done another)
      · exact .later turned (.pause pause)
          (inductionHypothesis pause (by omega))
      · exact .later turned (.idle idle)
          (idle.leads_of_request requests fits more)

/-- From every phase of an image it is written in the end. -/
theorem Phase.leads
    (phase : Phase setup done programs)
    (fits : setup.Fits)
    (more : (done : Int) < setup.captureCount) :
    Leads setup done programs := by
  cases phase with
  | idle idle =>
      exact idle.leads fits more
  | sending sending =>
      exact sending.leads fits more
  | sent sent =>
      exact sent.leads fits more
  | pause pause =>
      exact pause.leads fits more

end Phases

end Simbus.P2p.Cameralink
