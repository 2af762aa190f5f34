import Simbus.P2p.Handshake

/-!
# Runs of the camera and the capture program

Both programs at their server, with a clock that runs.  They wait for every edge
together, and what they do at an edge is a turn of their handshake.
-/

namespace Simbus.P2p.Cameralink

open FourValued Axi4 Clocked

/-- The server with both programs. -/
abbrev CaptureRun : Type :=
  Lockstep Server (Client Camera) Reply Unit (Client Capture) Reply Unit

/-- Both programs are connected to their server. -/
def Setup.start (setup : Setup) : CaptureRun where
  server :=
    { proto :=
        { clock := .ofOptions setup.options
          masterClockMode := .run
          widO := 27
          widI := 8 }
      hostSignals := .empty
      deviceSignals := .empty }
  first := (cameraMain setup.images clockRun).start
    ⟨.connect 8 27 0, setup.programs.camera⟩
  second := (captureMain setup.captureCount).start
    ⟨.connect 8 27 setup.deviceIdent, setup.programs.capture⟩

/-- The images in the files are the first ones that the camera has acquired. -/
structure Captured
    (setup : Setup)
    (run : CaptureRun)
    (done : Nat) : Prop where
  files : run.second.state.user.files = setup.files done
  fromCamera : done ≤ run.first.state.user.acquired
  atMostOne : run.first.state.user.acquired ≤ done + 1

/--
At any time the files are the images that the camera has acquired, up to the one
that it sends, and all images that are to be captured are written in the end.
-/
structure Transfers (setup : Setup) : Prop where
  safe : ∀ count, ∃ run done,
    setup.start.run Server.answer count = some run ∧ Captured setup run done
  live : ∀ done : Nat, (done : Int) ≤ setup.captureCount →
    ∃ count run, setup.start.run Server.answer count = some run ∧
      Captured setup run done

/-! ## Between two edges -/

/-- The camera after an edge. -/
def afterCameraEdge (images : Nat → Image) :
    Int → Client Camera → Behavior (Client Camera) Reply Unit :=
  fun _ client =>
    ((changeOrFail fun client =>
      (client.user.cam.advance (client.bus.simbusP2pIn (fun _ => 0) 0)).map
        fun cam =>
          { client with user := { client.user with cam := cam } }).start
            client).bind fun _ =>
        (Program.whileDo (fun _ => true) (cameraTurn images clockRun)).start

/-- The capture program after an edge. -/
def afterCaptureEdge (captureCount : Int) :
    Int → Client Capture → Behavior (Client Capture) Reply Unit :=
  fun _ client =>
    ((changeOrFail fun client =>
      client.user.process.map fun capture =>
        { client with user := capture }).start
          { client with
            user :=
              { client.user with
                cap := client.user.cap.receive
                  (client.bus.simbusP2pOutPeek (fun _ => 0) 0) } }).bind
        fun _ => (captureMain captureCount).start

/-- The camera waits for an edge. -/
def cameraWaits
    (images : Nat → Image)
    (host : SimbusP2p)
    (camera : Camera) : Behavior (Client Camera) Reply Unit :=
  ((simbusP2pClockPosedge 1).start
    ⟨host.simbusP2pOut fun _ => camera.cam.outBits, camera⟩).bind
      (afterCameraEdge images)

/-- The capture program waits for an edge. -/
def captureWaits
    (captureCount : Int)
    (device : SimbusP2p)
    (capture : Capture) : Behavior (Client Capture) Reply Unit :=
  ((simbusP2pClockPosedge 1).start
    ⟨device.simbusP2pInPoke fun _ => capture.cap.outBits, capture⟩).bind
      (afterCaptureEdge captureCount)

section

variable {setup : Setup}
variable {host device : SimbusP2p}
variable {camera nextCamera : Camera}
variable {capture nextCapture : Capture}
variable {programs next : Programs}

/-- A client that waits for an edge is in the state that it waits in. -/
theorem posedge_waits
    {User Value : Type}
    {client : Client User}
    (notLow : client.bus.clock ≠ .zero)
    (after : Int → Client User → Behavior (Client User) Reply Value) :
    (((simbusP2pClockPosedge 1).start client).bind after).run [] =
      .waiting client := by
  obtain ⟨later, isWaiting, _⟩ := exchangeUntil_start notLow
  rw [posedge_start, isWaiting, Behavior.await_bind, Behavior.run_await_nil]

/-- What changes the state of a program, if it does not fail. -/
theorem start_changeOrFail
    {User : Type}
    {change : Client User → Option (Client User)}
    {client changed : Client User}
    (isChanged : change client = some changed) :
    (changeOrFail change).start client = .finish () changed := by
  simp only [changeOrFail, Program.start_bind, Program.start_getState,
    Behavior.finish_bind, isChanged, Program.start_modifyState]

/-- `camera_step` up to its edge. -/
theorem start_cameraStep
    (images : Nat → Image)
    (host : SimbusP2p)
    (camera : Camera) :
    (cameraStep.start ⟨host, camera⟩).bind (fun _ =>
        (Program.whileDo (fun _ => true) (cameraTurn images clockRun)).start) =
      cameraWaits images host camera := by
  rw [cameraStep]
  simp only [Program.start_bind, Program.start_modifyState,
    Behavior.finish_bind, Behavior.bind_assoc]
  rfl

/-- The mode of the clock is not changed. -/
theorem chooseClock_run
    {client : Client Camera}
    (curClock : client.user.curClock = clockRun) :
    Camera.chooseClock clockRun client = some client := by
  simp only [Camera.chooseClock, ite_self, curClock, ne_eq, not_true_eq_false,
    if_false]

/-- The camera goes on to its next outputs. -/
theorem afterCameraEdge_eq
    (notLow : host.clock ≠ .zero)
    (curClock : camera.curClock = clockRun)
    (turned : camera.turned setup.images (host.simbusP2pIn (fun _ => 0) 0) =
      some nextCamera)
    (rc : Int) :
    afterCameraEdge setup.images rc ⟨host, camera⟩ =
      cameraWaits setup.images host nextCamera := by
  have sameClock : nextCamera.curClock = clockRun :=
    (Camera.turned_curClock turned).trans curClock
  obtain ⟨cam, advanced, prepared⟩ := Option.bind_eq_some_iff.mp turned
  have change : (do
      let camera ← Camera.prepare setup.images { camera with cam := cam }
      Camera.chooseClock clockRun (Client.mk host camera)) =
        some (Client.mk host nextCamera) := by
    rw [prepared]
    exact chooseClock_run sameClock
  have turn : (cameraTurn setup.images clockRun).start
      ⟨host, { camera with cam := cam }⟩ =
        cameraStep.start ⟨host, nextCamera⟩ := by
    rw [cameraTurn, Program.start_bind, start_changeOrFail change,
      Behavior.finish_bind]
  rw [afterCameraEdge, start_changeOrFail (by rw [advanced]; rfl),
    Behavior.finish_bind, Program.start_whileDo_true rfl, turn,
    start_cameraStep]
  intro final rest
  rw [turn, cameraStep]
  simp only [Program.start_bind, Program.start_modifyState,
    Behavior.finish_bind]
  rw [posedge_waits notLow]
  nofun

/-- The capture program goes on to its next turn. -/
theorem afterCaptureEdge_eq
    {cam : CameralinkMaster}
    (received : device.simbusP2pOutPeek (fun _ => 0) 0 = cam.outBits)
    (turned : capture.turned cam = some nextCapture)
    (rc : Int) :
    afterCaptureEdge setup.captureCount rc ⟨device, capture⟩ =
      (captureMain setup.captureCount).start ⟨device, nextCapture⟩ := by
  have processed : Capture.process
      { capture with cap := capture.cap.receive cam.outBits } =
        some nextCapture := turned
  rw [afterCaptureEdge, start_changeOrFail, Behavior.finish_bind]
  simp only [received, processed]
  rfl

/-- The main loop of the capture program goes on. -/
theorem captureMain_goesOn
    (notLow : device.clock ≠ .zero)
    (goesOn : capture.goesOn setup.captureCount = true) :
    (captureMain setup.captureCount).start ⟨device, capture⟩ =
      captureWaits setup.captureCount device capture := by
  have turns := @Program.start_whileDo_true (Client Capture) Reply
    (fun client => client.user.goesOn setup.captureCount) captureTurn
    ⟨device, capture⟩ goesOn
  rw [captureMain, turns]
  · simp only [captureTurn, captureStep, Program.start_bind,
      Program.start_modifyState, Behavior.finish_bind, Behavior.bind_assoc]
    rfl
  · intro final rest
    simp only [captureTurn, captureStep, Program.start_bind,
      Program.start_modifyState, Behavior.finish_bind, Behavior.bind_assoc]
    rw [posedge_waits notLow]
    nofun

/-- The main loop of the capture program comes to its end. -/
theorem captureMain_ends
    (ends : capture.goesOn setup.captureCount = false) :
    (captureMain setup.captureCount).start ⟨device, capture⟩ =
      .finish () ⟨device, capture⟩ :=
  @Program.start_whileDo_false (Client Capture) Reply
    (fun client => client.user.goesOn setup.captureCount) captureTurn
    ⟨device, capture⟩ ends

/-! ## From edge to edge -/

/-- Both programs wait for an edge, with their outputs set. -/
inductive AtTurn (setup : Setup) (programs : Programs) : CaptureRun → Prop where
  | intro {server : Server} {host device : SimbusP2p}
      (atEdge : AtEdge server host device)
      (hostInputs : host.widthI = 8)
      (deviceInputs : device.widthO = 27)
      (curClock : programs.camera.curClock = clockRun) :
      AtTurn setup programs
        ⟨server, cameraWaits setup.images host programs.camera,
          captureWaits setup.captureCount device programs.capture⟩

/-- What clients set does not change where they are. -/
theorem atEdge_driven
    {server : Server}
    (atEdge : AtEdge server host device)
    (dataO dataI : Nat → BitVec 32) :
    AtEdge server (host.simbusP2pOut dataO) (device.simbusP2pInPoke dataI) :=
  ⟨{ atEdge.linked with }, atEdge.phase, atEdge.notLow⟩

/-- The camera gets the outputs of the capture program. -/
theorem camera_receives
    {cap : CameralinkCapture}
    (inputs : host.widthI = 8)
    (outputs : device.widthI = 8)
    (arrived : ∀ idx < 8, host.dataI idx =
      (device.simbusP2pInPoke fun _ => cap.outBits).dataI idx) :
    host.simbusP2pIn (fun _ => 0) 0 = cap.outBits := by
  simp only [SimbusP2p.simbusP2pInPoke, outputs] at arrived
  rw [SimbusP2p.simbusP2pIn, inputs]
  refine peekBits_pokeBits arrived (by decide) fun bit bounded unused => ?_
  rw [Nat.mul_zero, Nat.zero_add] at unused
  exact (outBits_request cap).2 bit bounded unused

/-- The capture program gets the outputs of the camera. -/
theorem capture_receives
    {cam : CameralinkMaster}
    (inputs : device.widthO = 27)
    (outputs : host.widthO = 27)
    (arrived : ∀ idx < 27, device.dataO idx =
      (host.simbusP2pOut fun _ => cam.outBits).dataO idx) :
    device.simbusP2pOutPeek (fun _ => 0) 0 = cam.outBits := by
  simp only [SimbusP2p.simbusP2pOut, outputs] at arrived
  rw [SimbusP2p.simbusP2pOutPeek, inputs]
  refine peekBits_pokeBits arrived (by decide) fun bit bounded unused => ?_
  rw [Nat.mul_zero, Nat.zero_add] at unused
  exact (outBits_signals cam).2.2.2 bit bounded unused

/-- After the last image nothing happens any more. -/
structure AtEnd
    (programs : Programs)
    (run : CaptureRun) : Prop where
  stuck : run.Stuck
  pausing : Pausing run programs.camera programs.capture

/-- Four exchanges are an edge of both programs. -/
theorem AtTurn.turn
    {run : CaptureRun}
    (atTurn : AtTurn setup programs run)
    (turned : programs.turn setup.images = some next) :
    (∀ count < 4, ∃ paused, run.run Server.answer count = some paused ∧
        Pausing paused programs.camera programs.capture) ∧
      ∃ later, run.run Server.answer 4 = some later ∧
        (next.capture.goesOn setup.captureCount = true →
          AtTurn setup next later) ∧
        (next.capture.goesOn setup.captureCount = false →
          AtEnd next later) := by
  obtain @⟨server, host, device, atEdge, hostInputs, deviceInputs, curClock⟩ :=
    atTurn
  obtain ⟨camera, cameraTurned, turned⟩ := Option.bind_eq_some_iff.mp turned
  obtain ⟨capture, captureTurned, isNext⟩ := Option.bind_eq_some_iff.mp turned
  obtain rfl := Option.some.inj isNext
  have deviceOutputs : device.widthI = 8 :=
    (atEdge.linked.deviceWidthI.trans atEdge.linked.hostWidthI.symm).trans
      hostInputs
  have hostOutputs : host.widthO = 27 :=
    (atEdge.linked.hostWidthO.trans atEdge.linked.deviceWidthO.symm).trans
      deviceInputs
  obtain ⟨pauses, server', host', device', ran, atEdge', dataI, dataO, sameI,
    sameO⟩ := (atEdge_driven atEdge (fun _ => programs.camera.cam.outBits)
      (fun _ => programs.capture.cap.outBits)).posedge programs.camera
        programs.capture (afterCameraEdge setup.images)
        (afterCaptureEdge setup.captureCount)
  have hostGot : host'.simbusP2pIn (fun _ => 0) 0 =
      programs.capture.cap.outBits :=
    camera_receives (sameI.trans hostInputs) deviceOutputs fun idx inside =>
      dataI idx (Nat.lt_of_lt_of_eq inside hostInputs.symm)
  have deviceGot : device'.simbusP2pOutPeek (fun _ => 0) 0 =
      programs.camera.cam.outBits :=
    capture_receives (sameO.trans deviceInputs) hostOutputs fun idx inside =>
      dataO idx (Nat.lt_of_lt_of_eq inside deviceInputs.symm)
  have sameClock : camera.curClock = clockRun :=
    (Camera.turned_curClock cameraTurned).trans curClock
  have deviceNotLow : device'.clock ≠ .zero :=
    atEdge'.linked.sameClock.symm ▸ atEdge'.notLow
  rw [afterCameraEdge_eq atEdge'.notLow curClock (hostGot ▸ cameraTurned),
    afterCaptureEdge_eq deviceGot captureTurned] at ran
  refine ⟨pauses, _, ran, fun goesOn => ?_, fun ends => ?_⟩
  · rw [captureMain_goesOn deviceNotLow goesOn]
    exact .intro atEdge' (sameI.trans hostInputs) (sameO.trans deviceInputs)
      sameClock
  · rw [captureMain_ends ends]
    refine ⟨.inr nofun, ?_, rfl⟩
    rw [cameraWaits, Behavior.state, posedge_waits atEdge'.notLow]

/-! ## Whole runs -/

variable {run : CaptureRun}
variable {done : Nat}

/-- Before an edge both programs are in the states that they wait in. -/
theorem AtTurn.pausing
    (atTurn : AtTurn setup programs run) :
    Pausing run programs.camera programs.capture := by
  obtain @⟨server, host, device, atEdge, _⟩ := atTurn
  have deviceNotLow : device.clock ≠ .zero :=
    atEdge.linked.sameClock.symm ▸ atEdge.notLow
  constructor
  · rw [cameraWaits, Behavior.state, posedge_waits atEdge.notLow]
  · rw [captureWaits, Behavior.state, posedge_waits deviceNotLow]

/-- The host with the mode of its clock. -/
def startedHost : SimbusP2p :=
  { SimbusP2p.connect 8 27 0 with clockMode := bitsOf clockRun }

/-- The camera goes to its first edge. -/
theorem Setup.first_start (setup : Setup) :
    setup.start.first =
      cameraWaits setup.images startedHost setup.programs.camera := by
  rw [← start_cameraStep, Setup.start, cameraMain]
  rfl

/-- Both programs start before an edge. -/
theorem Setup.atTurn
    (setup : Setup)
    (goesOn : setup.programs.capture.goesOn setup.captureCount = true) :
    AtTurn setup setup.programs setup.start := by
  let device : SimbusP2p := .connect 8 27 setup.deviceIdent
  have deviceNotLow : device.clock ≠ .zero := by
    nofun
  have second : setup.start.second =
      captureWaits setup.captureCount device setup.programs.capture :=
    captureMain_goesOn deviceNotLow goesOn
  have traced : Traced 27 ∧ Traced 8 := by
    decide
  have atEdge : AtEdge setup.start.server startedHost device :=
    { linked :=
        { runs := rfl
          canTrace := ⟨traced.1, traced.2⟩
          someI := Nat.succ_pos 7
          someO := Nat.succ_pos 26
          isHost := rfl
          hostMode := by decide
          hostWidthI := rfl
          hostWidthO := rfl
          isDevice := setup.isDevice
          deviceWidthI := rfl
          deviceWidthO := rfl
          sameClock := rfl }
      phase := rfl
      notLow := nofun }
  have isStart : setup.start = ⟨setup.start.server, setup.start.first,
      setup.start.second⟩ := rfl
  rw [isStart, setup.first_start, second]
  exact .intro atEdge rfl rfl rfl

theorem Consistent.captured
    (consistent : Consistent setup done programs)
    (pausing : Pausing run programs.camera programs.capture) :
    Captured setup run done where
  files := by
    rw [pausing.second]
    exact consistent.written.files
  fromCamera := by
    rw [pausing.first]
    exact consistent.fromCamera
  atMostOne := by
    rw [pausing.first]
    exact consistent.atMostOne

/-- Up to the last image the main loop of the capture program goes on. -/
theorem Consistent.goesOn
    (consistent : Consistent setup done programs)
    (more : (done : Int) < setup.captureCount) :
    programs.capture.goesOn setup.captureCount = true := by
  rw [Capture.goesOn, consistent.written.captureSeq, decide_eq_true more,
    Bool.or_true]

/-- After the last image it comes to its end. -/
theorem Wrote.ends
    (wrote : Wrote setup done programs)
    (last : ¬ (done : Int) + 1 < setup.captureCount) :
    programs.capture.goesOn setup.captureCount = false := by
  rw [Capture.goesOn, wrote.consistent.written.captureSeq, wrote.fvv,
    Bool.false_or, Nat.cast_add_one, decide_eq_false last]

/-- At any time the files are images of the camera. -/
theorem AtTurn.safe
    (atTurn : AtTurn setup programs run)
    (phase : Phase setup done programs)
    (fits : setup.Fits)
    (more : (done : Int) < setup.captureCount)
    (count : Nat) :
    ∃ later written, run.run Server.answer count = some later ∧
      Captured setup later written := by
  induction count using Nat.strong_induction_on generalizing run programs done with
  | _ count inductionHypothesis =>
      obtain ⟨next, turned, onward⟩ := phase.turn fits more
      obtain ⟨pauses, later, ran, goesOn, ends⟩ := atTurn.turn turned
      rcases Nat.lt_or_ge count 4 with early | enough
      · obtain ⟨paused, ranPaused, pausing⟩ := pauses count early
        exact ⟨paused, done, ranPaused, phase.consistent.captured pausing⟩
      · obtain ⟨left, rfl⟩ := Nat.exists_eq_add_of_le enough
        rw [Pair.run_add, ran, Option.bind_some]
        rcases onward with samePhase | wrote
        · exact inductionHypothesis left (by omega)
            (goesOn (samePhase.consistent.goesOn more)) samePhase more
        · by_cases another : (done : Int) + 1 < setup.captureCount
          · have nextMore : ((done + 1 : Nat) : Int) < setup.captureCount := by
              rwa [Nat.cast_add_one]
            exact inductionHypothesis left (by omega)
              (goesOn (wrote.consistent.goesOn nextMore))
              (.pause (wrote.pause another)) nextMore
          · have atEnd := ends (wrote.ends another)
            exact ⟨later, done + 1, atEnd.stuck.run left,
              wrote.consistent.captured atEnd.pausing⟩

/-- The run after the image has been written. -/
inductive AfterImage (setup : Setup) (done : Nat) (run : CaptureRun) : Prop where
  | another {programs : Programs} :
      ((done + 1 : Nat) : Int) < setup.captureCount →
        AtTurn setup programs run → Phase setup (done + 1) programs →
          AfterImage setup done run
  | last {programs : Programs} :
      ¬ ((done + 1 : Nat) : Int) < setup.captureCount →
        AtEnd programs run → Consistent setup (done + 1) programs →
          AfterImage setup done run

/-- The image is written in the end. -/
theorem Leads.writes
    (leads : Leads setup done programs)
    (atTurn : AtTurn setup programs run)
    (more : (done : Int) < setup.captureCount) :
    ∃ later, Pair.Reaches Server.answer run later ∧
      AfterImage setup done later := by
  induction leads generalizing run with
  | wrote turned wrote =>
      obtain ⟨_, later, ran, goesOn, ends⟩ := atTurn.turn turned
      refine ⟨later, ⟨4, ran⟩, ?_⟩
      by_cases another : (done : Int) + 1 < setup.captureCount
      · have nextMore : ((done + 1 : Nat) : Int) < setup.captureCount := by
          rwa [Nat.cast_add_one]
        exact .another nextMore (goesOn (wrote.consistent.goesOn nextMore))
          (.pause (wrote.pause another))
      · have noMore : ¬ ((done + 1 : Nat) : Int) < setup.captureCount := by
          rwa [Nat.cast_add_one]
        exact .last noMore (ends (wrote.ends another)) wrote.consistent
  | later turned samePhase _ inductionHypothesis =>
      obtain ⟨_, later, ran, goesOn, _⟩ := atTurn.turn turned
      obtain ⟨final, reaches, afterImage⟩ :=
        inductionHypothesis (goesOn (samePhase.consistent.goesOn more))
      exact ⟨final, .trans ⟨4, ran⟩ reaches, afterImage⟩

theorem AfterImage.captured
    (afterImage : AfterImage setup done run) :
    Captured setup run (done + 1) := by
  cases afterImage with
  | another _ atTurn phase =>
      exact phase.consistent.captured atTurn.pausing
  | last _ atEnd consistent =>
      exact consistent.captured atEnd.pausing

/-- All images are written. -/
theorem AtTurn.live
    (atTurn : AtTurn setup programs run)
    (phase : Phase setup 0 programs)
    (fits : setup.Fits)
    (done : Nat)
    (counted : (done : Int) < setup.captureCount) :
    ∃ later, Pair.Reaches Server.answer run later ∧
      AfterImage setup done later := by
  induction done with
  | zero =>
      exact (phase.leads fits counted).writes atTurn counted
  | succ done inductionHypothesis =>
      obtain ⟨middle, reaches, afterImage⟩ :=
        inductionHypothesis (by omega)
      cases afterImage with
      | another nextMore atTurn phase =>
          obtain ⟨later, onward, afterImage⟩ :=
            (phase.leads fits nextMore).writes atTurn nextMore
          exact ⟨later, reaches.trans onward, afterImage⟩
      | last noMore _ _ =>
          exact (noMore counted).elim

/-- Without an image that is to be captured nothing happens. -/
theorem Setup.atEnd
    (setup : Setup)
    (noImage : ¬ 0 < setup.captureCount) :
    AtEnd setup.programs setup.start := by
  have ends : setup.programs.capture.goesOn setup.captureCount = false :=
    decide_eq_false noImage
  have second : setup.start.second = .finish ()
      ⟨.connect 8 27 setup.deviceIdent, setup.programs.capture⟩ :=
    captureMain_ends ends
  have hostNotLow : startedHost.clock ≠ .zero := by
    nofun
  refine ⟨.inr ?_, ?_, ?_⟩
  · rw [second]
    nofun
  · rw [setup.first_start, cameraWaits, Behavior.state,
      posedge_waits hostNotLow]
  · rw [second]
    rfl

/--
While the counters of both programs do not overflow, and the camera can read what
it sends in its margins, the images in the files are those that the camera
acquires, in their order, and all of them are written.
-/
theorem transfers_of_fits
    (setup : Setup)
    (fits : setup.Fits) :
    Transfers setup := by
  by_cases someImage : 0 < setup.captureCount
  · have phase : Phase setup 0 setup.programs :=
      .idle (setup.idle (fits.blankLine someImage))
    have atTurn := setup.atTurn (phase.consistent.goesOn someImage)
    refine ⟨fun count => atTurn.safe phase fits someImage count, ?_⟩
    intro done counted
    cases done with
    | zero =>
        exact ⟨0, _, rfl, phase.consistent.captured atTurn.pausing⟩
    | succ done =>
        obtain ⟨later, ⟨count, ran⟩, afterImage⟩ :=
          atTurn.live phase fits done (by omega)
        exact ⟨count, later, ran, afterImage.captured⟩
  · have atEnd := setup.atEnd someImage
    have captured := setup.consistent.captured atEnd.pausing
    refine ⟨fun count => ⟨_, 0, atEnd.stuck.run count, captured⟩, ?_⟩
    intro done counted
    obtain rfl : done = 0 := by omega
    exact ⟨0, _, rfl, captured⟩

/-- One white pixel, with room for another one behind it. -/
def whitePixel : Image where
  width := 1
  height := 1
  data := [255, 255, 255]
  behind := [0, 0, 0]
  someWidth := by decide
  someHeight := by decide
  complete := rfl

/-- Images of one pixel on lines with the smallest margin. -/
def pixels (useGap : BitVec 32) (someGap : 0 < useGap.toNat) : Setup where
  options := ⟨5000, 5000, 2000, 2000⟩
  accepted := evenOptions_accepted
  deviceIdent := 1
  isDevice := one_isDevice
  images := fun _ => whitePixel
  useWid := 1
  useMar := 1
  useGap := useGap
  someWid := by decide
  someMar := by decide
  someGap := someGap
  videoArea := 1
  videoData := fun _ => 0
  captureCount := 2
  room := fun _ => Nat.le_refl 1

/-- Two images of one pixel with the smallest gap. -/
theorem transfers_of_fits_pixels : Transfers (pixels 1 (by decide)) := by
  have frame : (pixels 1 (by decide)).FrameFits whitePixel :=
    ⟨by decide, by decide, by decide, by decide⟩
  have period : (pixels 1 (by decide)).period whitePixel < 2 ^ 32 := by
    decide
  exact transfers_of_fits _
    { blankLine := fun _ => by decide
      frames := fun _ _ => frame
      gaps := fun _ _ => period }

/-! ## A gap that overflows -/

/-- The widest gap, which is no gap with the height of one line. -/
def widestGap : Setup :=
  pixels 0xFFFFFFFF (by decide)

/-- The camera has dropped its image, or has not taken it. -/
structure Lost (programs : Programs) : Prop where
  blank : Blank widestGap programs.camera.cam
  waiting : Waiting widestGap 0 programs.capture

/-- An image is dropped as soon as it is taken. -/
theorem drops_image
    {cam : CameralinkMaster}
    (blank : Blank widestGap cam) :
    ∃ next, (({ cam with armRequest := false } :
        CameralinkMaster).loadImageFile whitePixel).bind
          CameralinkMaster.video = some next ∧ Blank widestGap next := by
  let loaded : CameralinkMaster :=
    { cam with
      armRequest := false
      videoHei := whitePixel.height
      videoWid := whitePixel.width
      videoData := some (whitePixel.data ++ whitePixel.behind) }
  have isLoaded : ({ cam with armRequest := false } :
      CameralinkMaster).loadImageFile whitePixel = some loaded :=
    if_pos (by decide)
  have isWidth : loaded.frameWidth = 1 + 1 :=
    congrArg (1 + ·) blank.videoMar
  have someLine : loaded.frameWidth ≠ 0 := by
    rw [isWidth]
    decide
  have isHeight : loaded.frameHeight = 1 + 0xFFFFFFFF :=
    congrArg (1 + ·) blank.videoGap
  have noHeight : loaded.frameHeight = 0 := by
    rw [isHeight]
    decide
  have isOver : loaded.frameHeight ≤ loaded.videoPtr / loaded.frameWidth := by
    rw [noHeight, BitVec.le_def]
    exact Nat.zero_le _
  have isVideo : loaded.video = some
      { loaded with
        lvv := decide (loaded.videoPtr % loaded.frameWidth < loaded.videoWid)
        vce := true
        fvv := false
        videoHei := 0
        videoData := none } := by
    rw [CameralinkMaster.video, if_neg someLine]
    exact if_pos isOver
  rw [isLoaded, Option.bind_some]
  exact ⟨_, isVideo, rfl, blank.videoMar, blank.videoGap, someLine, rfl⟩

/-- The camera never sends anything. -/
theorem Lost.turn
    (lost : Lost programs) :
    ∃ next, programs.turn widestGap.images = some next ∧ Lost next := by
  obtain ⟨capture, captureTurned, waiting, _⟩ :=
    lost.waiting.turned lost.blank.fvv
  let val := programs.capture.cap.outBits
  by_cases requested : Camera.Requested (programs.camera.cam.marked val)
  · obtain ⟨cam, isNext, blank⟩ := drops_image (lost.blank.marked val)
    exact ⟨_, turn_eq (lost.blank.turned_of_requested requested isNext)
      captureTurned, blank, waiting⟩
  · obtain ⟨camera, cameraTurned, stays⟩ :=
      lost.blank.turned_stays widestGap.images requested
    exact ⟨_, turn_eq cameraTurned captureTurned, stays.blank, waiting⟩

/-- There is no file at any time. -/
theorem Lost.files
    (lost : Lost programs)
    (atTurn : AtTurn widestGap programs run)
    (count : Nat) :
    ∃ later, run.run Server.answer count = some later ∧
      later.second.state.user.files = [] := by
  induction count using Nat.strong_induction_on generalizing run programs with
  | _ count inductionHypothesis =>
      obtain ⟨next, turned, nextLost⟩ := lost.turn
      obtain ⟨pauses, later, ran, goesOn, _⟩ := atTurn.turn turned
      rcases Nat.lt_or_ge count 4 with early | enough
      · obtain ⟨paused, ranPaused, pausing⟩ := pauses count early
        refine ⟨paused, ranPaused, ?_⟩
        rw [pausing.second]
        exact lost.waiting.files
      · obtain ⟨left, rfl⟩ := Nat.exists_eq_add_of_le enough
        rw [Pair.run_add, ran, Option.bind_some]
        have isGoing : next.capture.goesOn widestGap.captureCount = true := by
          rw [Capture.goesOn, nextLost.waiting.captureSeq]
          exact Bool.or_true _
        exact inductionHypothesis left (by omega) nextLost (goesOn isGoing)

/-- The camera takes an image and drops it, and no file is ever written. -/
theorem widestGap_loses : ¬ Transfers widestGap := by
  intro transfers
  obtain ⟨count, run, ran, captured⟩ := transfers.live 1 (by decide)
  have idle := widestGap.idle (by decide)
  have atTurn := widestGap.atTurn rfl
  obtain ⟨later, ranLater, noFile⟩ :=
    Lost.files ⟨idle.blank, idle.waiting⟩ atTurn count
  obtain rfl := Option.some.inj (ran.symm.trans ranLater)
  rw [captured.files] at noFile
  cases noFile

end

end Simbus.P2p.Cameralink
