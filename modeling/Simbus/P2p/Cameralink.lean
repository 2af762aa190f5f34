import Simbus.P2p.Posedge

/-!
# The video camera and the capture program

`camera.c` and `capture.c` on a point-to-point bus.  The camera sends an image
after a request, line by line, with a margin after every line and a gap after
the last one.  The capture program requests images, measures their width and
writes each of them to a file.
-/

namespace Simbus.P2p.Cameralink

open FourValued Axi4 Clocked

abbrev Byte : Type := BitVec 8

/-! ## The camera -/

/--
An image as `load_image_file` leaves it: the width in clocks, the height, three
bytes for every clock of every line, and the bytes behind its buffer, as far as
the program can read them.
-/
structure Image where
  width : BitVec 32
  height : BitVec 32
  data : List Byte
  behind : List Byte
  someWidth : 0 < width.toNat
  someHeight : 0 < height.toNat
  complete : data.length = 3 * (width.toNat * height.toNat)

/--
`struct cameralink_master`, without the number of gray lanes.  The buffer is
given with the bytes behind it.
-/
structure CameralinkMaster where
  red : Byte
  green : Byte
  blue : Byte
  vce : Bool
  lvv : Bool
  fvv : Bool
  camEnable : Bool
  camRequest : Bool
  videoData : Option (List Byte)
  videoWid : BitVec 32
  videoMar : BitVec 32
  videoHei : BitVec 32
  videoGap : BitVec 32
  videoPtr : BitVec 32
  armRequest : Bool

/--
The camera program.  The list of images goes round without end, so the number
of acquired images tells the next one.
-/
structure Camera where
  cam : CameralinkMaster
  curClock : BitVec 2
  acquired : Nat

/-- `SIMBUS_P2P_CLOCK_RUN`. -/
def clockRun : BitVec 2 := 0

namespace CameralinkMaster

/-- The zeroed structure, and the options of the command line. -/
def init (useWid useMar useGap : BitVec 32) : CameralinkMaster where
  red := 0
  green := 0
  blue := 0
  vce := false
  lvv := false
  fvv := false
  camEnable := false
  camRequest := false
  videoData := none
  videoWid := useWid
  videoMar := useMar
  videoHei := 0
  videoGap := useGap
  videoPtr := 0
  armRequest := false

/-- The output bits of `camera_step`. -/
def outBits (cam : CameralinkMaster) : BitVec 32 :=
  cam.red.setWidth 32 ||| cam.green.setWidth 32 <<< 8 |||
    cam.blue.setWidth 32 <<< 16 |||
    (if cam.vce then 0x01000000 else 0) |||
    (if cam.lvv then 0x02000000 else 0) |||
    (if cam.fvv then 0x04000000 else 0)

def frameWidth (cam : CameralinkMaster) : BitVec 32 :=
  cam.videoWid + cam.videoMar

def frameHeight (cam : CameralinkMaster) : BitVec 32 :=
  cam.videoHei + cam.videoGap

/-- The end of `camera_step`, with the input bits. -/
def advance
    (cam : CameralinkMaster)
    (val : BitVec 32) : Option CameralinkMaster :=
  let camRequest := val.getLsbD 1
  let cam :=
    { cam with
      camEnable := val.getLsbD 0
      camRequest := camRequest
      -- Lowering the request arms the next one.
      armRequest := if camRequest then cam.armRequest else true
      videoPtr := cam.videoPtr + 1 }
  match cam.videoData with
  | some _ => some cam
  | none =>
      if cam.frameWidth = 0 then
        none
      else
        some { cam with videoPtr := cam.videoPtr % cam.frameWidth }

/-- `load_image_file`; the buffer must hold what is copied into it. -/
def loadImageFile
    (cam : CameralinkMaster)
    (image : Image) : Option CameralinkMaster :=
  if image.data.length ≤ (3 * image.width * image.height).toNat then
    some
      { cam with
        videoHei := image.height
        videoWid := image.width
        videoData := some (image.data ++ image.behind) }
  else
    none

/-- `clear_image`. -/
def clearImage (cam : CameralinkMaster) : CameralinkMaster :=
  { cam with videoHei := 0, videoData := none }

/--
The position of the video pointer as signals.  The width may not be 0, and what
is sent must be there to be read.
-/
def video (cam : CameralinkMaster) : Option CameralinkMaster :=
  if cam.frameWidth = 0 then
    none
  else
    let vpos := cam.videoPtr / cam.frameWidth
    let hpos := cam.videoPtr % cam.frameWidth
    let timed := { cam with lvv := hpos < cam.videoWid, vce := true }
    match cam.videoData with
    | none => some { timed with fvv := false }
    | some data =>
        if cam.frameHeight ≤ vpos then
          some { timed with fvv := false }.clearImage
        else if cam.videoHei ≤ vpos then
          some { timed with fvv := false }
        else
          -- In the margin of the last line this is behind the buffer.
          let pix := (3 * cam.videoWid * vpos).toNat + (3 * hpos).toNat
          if pix + 3 ≤ data.length then
            some
              { timed with
                fvv := true
                red := data.getD pix 0
                green := data.getD (pix + 1) 0
                blue := data.getD (pix + 2) 0 }
          else
            none

end CameralinkMaster

namespace Camera

/-- A request for an image that the camera can take now. -/
def Requested (cam : CameralinkMaster) : Prop :=
  cam.videoData = none ∧ cam.armRequest = true ∧ cam.camRequest = true ∧
    cam.videoPtr = 0

instance (cam : CameralinkMaster) : Decidable (Requested cam) :=
  inferInstanceAs (Decidable (_ ∧ _ ∧ _ ∧ _))

/-- `acquire_next_image`. -/
def acquireNextImage
    (images : Nat → Image)
    (camera : Camera) : Option Camera :=
  ({ camera.cam with armRequest := false }.loadImageFile
    (images camera.acquired)).map fun cam =>
      { camera with cam := cam, acquired := camera.acquired + 1 }

/-- A turn of the main loop up to the clock mode. -/
def prepare
    (images : Nat → Image)
    (camera : Camera) : Option Camera := do
  let camera ←
    if Requested camera.cam then camera.acquireNextImage images
    else some camera
  let cam ← camera.cam.video
  return { camera with cam := cam }

/-- The choice of the clock mode. -/
def chooseClock
    (useClockWhenDisable : BitVec 2)
    (client : Client Camera) : Option (Client Camera) :=
  let tryMode :=
    if client.user.cam.camEnable then clockRun else useClockWhenDisable
  if tryMode ≠ client.user.curClock then
    (client.bus.simbusP2pClockMode tryMode).map fun bus =>
      { bus := bus, user := { client.user with curClock := tryMode } }
  else
    some client

end Camera

/-- Change the state of a program, or fail. -/
def changeOrFail
    {User : Type}
    (change : Client User → Option (Client User)) : Call User Unit := do
  match change (← Program.getState) with
  | some client => Program.modifyState fun _ => client
  | none => Program.abort

/-- `camera_step`. -/
def cameraStep : Call Camera Unit := do
  Program.modifyState fun client =>
    { client with
      bus := client.bus.simbusP2pOut fun _ => client.user.cam.outBits }
  let _ ← simbusP2pClockPosedge 1
  changeOrFail fun client =>
    (client.user.cam.advance (client.bus.simbusP2pIn (fun _ => 0) 0)).map
      fun cam => { client with user := { client.user with cam := cam } }

/-- A turn of the main loop of the camera. -/
def cameraTurn
    (images : Nat → Image)
    (useClockWhenDisable : BitVec 2) : Call Camera Unit := do
  changeOrFail fun client => do
    let camera ← client.user.prepare images
    Camera.chooseClock useClockWhenDisable { client with user := camera }
  cameraStep

/-- The camera after it has been connected. -/
def cameraMain
    (images : Nat → Image)
    (useClockWhenDisable : BitVec 2) : Call Camera Unit := do
  changeOrFail fun client =>
    (client.bus.simbusP2pClockMode client.user.curClock).map fun bus =>
      { client with bus := bus }
  cameraStep
  Program.whileDo (fun _ => true) (cameraTurn images useClockWhenDisable)

/-! ## The capture program -/

/-- `struct cameralink_capture`; the buffer has three bytes for each pixel. -/
structure CameralinkCapture where
  red : Byte
  green : Byte
  blue : Byte
  vce : Bool
  lvv : Bool
  fvv : Bool
  camEnable : Bool
  camRequest : Bool
  videoData : Nat → Byte
  videoArea : Nat
  videoPtr : BitVec 32
  videoWid : BitVec 32

/-- A file with an image. -/
structure Ppm where
  seq : Nat
  width : BitVec 32
  height : BitVec 32
  data : List Byte
  deriving DecidableEq

/-- The capture program, with the files that it has written. -/
structure Capture where
  cap : CameralinkCapture
  captureSeq : Nat
  files : List Ppm

namespace CameralinkCapture

/-- The structure before the main loop, with some contents of the buffer. -/
def init
    (videoArea : Nat)
    (videoData : Nat → Byte) : CameralinkCapture where
  red := 0
  green := 0
  blue := 0
  vce := false
  lvv := false
  fvv := false
  camEnable := true
  camRequest := false
  videoData := videoData
  videoArea := videoArea
  videoPtr := 0
  videoWid := 0

/-- The output bits of `capture_step`. -/
def outBits (cap : CameralinkCapture) : BitVec 32 :=
  (if cap.camEnable then 0x01 else 0) ||| (if cap.camRequest then 0x02 else 0)

/-- The end of `capture_step`, with the input bits. -/
def receive
    (cap : CameralinkCapture)
    (val : BitVec 32) : CameralinkCapture :=
  { cap with
    red := val.setWidth 8
    green := (val >>> 8).setWidth 8
    blue := (val >>> 16).setWidth 8
    vce := val.getLsbD 24
    lvv := val.getLsbD 25
    fvv := val.getLsbD 26 }

/-- Store a pixel, where the buffer has room for it. -/
def storePixel (cap : CameralinkCapture) : Option CameralinkCapture :=
  let pix := (3 * cap.videoPtr).toNat
  if pix + 3 ≤ 3 * cap.videoArea then
    some
      { cap with
        videoData := fun place =>
          if place = pix then cap.red
          else if place = pix + 1 then cap.green
          else if place = pix + 2 then cap.blue
          else cap.videoData place
        videoPtr := cap.videoPtr + 1 }
  else
    none

/-- Take the measured width, or the number of pixels of the only line. -/
def measure (cap : CameralinkCapture) : CameralinkCapture :=
  { cap with
    videoWid := if cap.videoWid = 0 then cap.videoPtr else cap.videoWid }

end CameralinkCapture

namespace Capture

/-- Write the image to its file. -/
def writeImage (capture : Capture) : Capture :=
  let cap := capture.cap.measure
  let gotHei := cap.videoPtr / cap.videoWid
  { cap := { cap with videoPtr := 0, videoWid := 0 }
    captureSeq := capture.captureSeq + 1
    files := capture.files ++
      [{ seq := capture.captureSeq
         width := cap.videoWid
         height := gotHei
         data := (List.range (3 * cap.videoWid * gotHei).toNat).map
           cap.videoData }] }

/-- A turn of the main loop after `capture_step`. -/
def process (capture : Capture) : Option Capture :=
  let cap := { capture.cap with camRequest := !capture.cap.fvv }
  if cap.fvv ∧ cap.lvv ∧ cap.vce then
    cap.storePixel.map fun cap => { capture with cap := cap }
  else if cap.fvv ∧ ¬ cap.lvv then
    some { capture with cap := cap.measure }
  else if ¬ cap.fvv ∧ cap.videoPtr ≠ 0 then
    some { capture with cap := cap }.writeImage
  else
    some { capture with cap := cap }

end Capture

/-- `capture_step`. -/
def captureStep : Call Capture Unit := do
  Program.modifyState fun client =>
    { client with
      bus := client.bus.simbusP2pInPoke fun _ => client.user.cap.outBits }
  let _ ← simbusP2pClockPosedge 1
  Program.modifyState fun client =>
    { client with
      user :=
        { client.user with
          cap :=
            client.user.cap.receive
              (client.bus.simbusP2pOutPeek (fun _ => 0) 0) } }

/-- A turn of the main loop of the capture program. -/
def captureTurn : Call Capture Unit := do
  captureStep
  changeOrFail fun client =>
    client.user.process.map fun capture => { client with user := capture }

/-- Whether the main loop goes on. -/
def Capture.goesOn (captureCount : Int) (capture : Capture) : Bool :=
  capture.cap.fvv || decide ((capture.captureSeq : Int) < captureCount)

/-- The capture program up to the end of the simulation. -/
def captureMain (captureCount : Int) : Call Capture Unit :=
  Program.whileDo (fun client => client.user.goesOn captureCount) captureTurn

end Simbus.P2p.Cameralink
