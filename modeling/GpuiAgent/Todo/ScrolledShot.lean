import GpuiAgent.Capture.Scrolled
import GpuiAgent.Todo.App

namespace GpuiAgent

open Framework

def METRICS_WAIT_FRAMES : Nat := 90

/-- What a frame of a scrolled capture takes from GPUI, the operating system and the image code. -/
structure Screen where
  windowSize : F32 × F32
  windowId : Nat
  scrollMetrics : Except String ScrollMetrics
  planScrollTiles : ScrollMetrics → Nat → Except String (List TileSpec)
  captureWindowPngBytes : Nat → Except String (List UInt8)
  cropWindowPng : List UInt8 → F32 × F32 → Bounds → F32 → F32 → Except String RgbaImage
  stitchTilesVertically : List RgbaImage → Except String RgbaImage
  encodePngRgba : RgbaImage → Except String (List UInt8)
  atomicWritePng : List String → List UInt8 → Except String Unit

inductive ScrolledPhase where
  | waitMetrics | waitPaint
  deriving DecidableEq

/-- How far a scrolled capture has got; while it takes tiles there is a next one. -/
structure ScrolledCapture where
  originalOffset : F32
  tiles : List TileSpec
  next : Nat
  captured : List RgbaImage
  metrics : Option ScrollMetrics
  windowSize : F32 × F32
  windowId : Nat
  phase : ScrolledPhase
  framesWaited : Nat
  awaitingPaint : Bool
  inRange : phase = .waitPaint → next < tiles.length

/-- What a frame makes of a capture, and where it scrolls to. -/
inductive CaptureStep where
  | waiting (capture : ScrolledCapture) (scrollTo : Option F32)
  | finished (result : Except String DispatchResult) (restore : F32)

def CaptureStep.result? : CaptureStep → Option (Except String DispatchResult)
  | waiting _ _ => none
  | finished result _ => some result

def scrolledDispatchResult (path target : String) (contentHeight viewportHeight : F32)
    (tiles : Nat) : DispatchResult :=
  .json (.object [("backend", .string SCREENSHOT_BACKEND_SCREENCAPTURE),
    ("content_height", contentHeight.toJson), ("mode", .string "scrolled"),
    ("path", .string path), ("target", .string target), ("tiles", .number (.int tiles)),
    ("viewport_height", viewportHeight.toJson)])

namespace ScrolledCapture

variable (env : Env) (screen : Screen)

/-- The capture of a job that `start_scrolled_job` accepts. -/
def start : ScrolledCapture where
  originalOffset := match screen.scrollMetrics with
    | .ok metrics => metrics.offsetY
    | .error _ => .finite 0
  tiles := []
  next := 0
  captured := []
  metrics := none
  windowSize := screen.windowSize
  windowId := screen.windowId
  phase := .waitMetrics
  framesWaited := 0
  awaitingPaint := false
  inRange := fun h => by cases h

variable (job : ScrolledShotJob) (c : ScrolledCapture)

/-- Grab the window and crop the tile out of it. -/
def grab (spec : TileSpec) : Except String (ScrollMetrics × RgbaImage) := do
  let some metrics := c.metrics | throw (scrollUnavailable "missing scroll metrics")
  let png ← screen.captureWindowPngBytes c.windowId
  let slice ← screen.cropWindowPng png c.windowSize metrics.viewport spec.skipTopPx spec.takeHeightPx
  return (metrics, slice)

/-- Stitch the tiles and write the image. -/
def writeOut (metrics : ScrollMetrics) (captured : List RgbaImage) :
    Except String DispatchResult := do
  let stitched ← screen.stitchTilesVertically captured
  let bytes ← screen.encodePngRgba stitched
  if MAX_SCROLLED_PNG_BYTES < bytes.length then
    throw s!"stitched png exceeds {MAX_SCROLLED_PNG_BYTES} bytes ({bytes.length})"
  let dest ← confineScreenshotPathIn job.destClient env.screenshotDir
  screen.atomicWritePng dest bytes
  return scrolledDispatchResult ("/".intercalate dest) job.target
    (metrics.contentHeight.max metrics.viewport.h) metrics.viewport.h c.tiles.length

/-- One frame of `advance_scrolled_job_macos`. -/
def advance : CaptureStep :=
  let c := { c with framesWaited := c.framesWaited + 1, windowSize := screen.windowSize }
  match hphase : c.phase with
  | .waitMetrics => match screen.scrollMetrics with
    | .ok metrics =>
      let cap := match job.reply.request.op with
        | .screenshot _ _ _ maxHeightPx => maxHeightPx.getD DEFAULT_MAX_HEIGHT_PX
        | _ => DEFAULT_MAX_HEIGHT_PX
      match screen.planScrollTiles metrics cap with
      | .error error => .finished (.error error) c.originalOffset
      | .ok [] => .finished (.error "scrolled screenshot produced no tiles") metrics.offsetY
      | .ok (tile :: tiles) =>
        .waiting { c with
          originalOffset := metrics.offsetY
          metrics := some metrics
          tiles := tile :: tiles
          next := 0
          phase := .waitPaint
          awaitingPaint := true
          inRange := fun _ => Nat.zero_lt_succ tiles.length } (some tile.offsetY)
    | .error error =>
      if c.framesWaited < METRICS_WAIT_FRAMES then .waiting c none
      else .finished (.error error) c.originalOffset
  | .waitPaint =>
    -- the frame after a scroll only paints
    if c.awaitingPaint then .waiting { c with awaitingPaint := false } none
    else match grab screen c (c.tiles.get ⟨c.next, c.inRange hphase⟩) with
      | .error error => .finished (.error error) c.originalOffset
      | .ok (metrics, slice) =>
        let captured := c.captured ++ [slice]
        if more : c.next + 1 < c.tiles.length then
          .waiting { c with
            captured
            next := c.next + 1
            awaitingPaint := true
            inRange := fun _ => more } (some (c.tiles.get ⟨c.next + 1, more⟩).offsetY)
        else .finished (writeOut env screen job c metrics captured) c.originalOffset

end ScrolledCapture

end GpuiAgent
