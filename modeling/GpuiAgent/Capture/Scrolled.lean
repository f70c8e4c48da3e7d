import GpuiAgent.Capture.Bitmap
import GpuiAgent.Capture.Tiles
import GpuiAgent.Framework.Indexed

namespace GpuiAgent

open Framework

def MAX_SCROLLED_PNG_BYTES : Nat := 32 * 1024 * 1024

def SCREENSHOT_BACKEND_SCREENCAPTURE : String := "screencapture"

section Crop

variable (img : RgbaImage) (windowW windowH : F32) (clip : Bounds) (skipTopPx takeHeightPx : F32)

/-- Bitmap pixels for each logical pixel. -/
def pngScale : F32 := (F32.finite img.width).div windowW

/-- What the picture has above the content: the title bar. -/
def extraTop : F32 :=
  (((F32.finite img.height).div (pngScale img windowW)).sub windowH).max (.finite 0)

/-- `as i64`, not below zero, `as u32`. -/
def F32.toPixel (x : F32) : Nat := x.round.toI64.toNat % 2 ^ 32

def clipLeft : Nat := (clip.x.mul (pngScale img windowW)).toPixel

def clipTop : Nat :=
  (((clip.y.add (extraTop img windowW windowH)).add skipTopPx).mul (pngScale img windowW)).toPixel

def clipColumns : Nat := max (clip.w.mul (pngScale img windowW)).round.toU32 1

/-- The rows that a tile asks for. -/
def tileRows : Nat := max (takeHeightPx.mul (pngScale img windowW)).round.toU32 1

/-- Map a logical clip onto a window picture. -/
def cropWindowPng (codec : PngCodec) (display : F32 → String) (png : List UInt8)
    (windowW windowH : F32) (clip : Bounds) (skipTopPx takeHeightPx : F32) :
    Except String RgbaImage := do
  let img ← decodePngRgba codec png
  if windowW.lt (.finite 1) ∨ windowH.lt (.finite 1) then
    throw (screenshotUnavailable "window size is zero; cannot crop a scrolled tile")
  let x := clipLeft img windowW clip
  let y := clipTop img windowW windowH clip skipTopPx
  let w := min (clipColumns img windowW clip) (img.width - x)
  let h := min (tileRows img windowW takeHeightPx) (img.height - y)
  if w = 0 ∨ h = 0 then
    throw (screenshotUnavailable (s!"scroll clip ({display clip.x},{display clip.y}) " ++
      s!"{display clip.w}x{display clip.h} is outside {img.width}x{img.height} window png"))
  cropRgba img x y w h

/-- The slice has the rows that were asked for, or those down to the picture's bottom. -/
theorem cropWindowPng_height {codec : PngCodec} {display : F32 → String} {png : List UInt8}
    {windowW windowH : F32} {clip : Bounds} {skipTopPx takeHeightPx : F32} {slice : RgbaImage}
    (h : cropWindowPng codec display png windowW windowH clip skipTopPx takeHeightPx = .ok slice) :
    ∃ img, decodePngRgba codec png = .ok img ∧ 0 < slice.height ∧
      slice.height = min (tileRows img windowW takeHeightPx)
        (img.height - clipTop img windowW windowH clip skipTopPx) := by
  simp only [cropWindowPng] at h
  obtain ⟨img, himg, h⟩ := bind_eq_ok.mp h
  simp only [refuse_eq_ok] at h
  obtain ⟨-, -, h⟩ := h
  obtain ⟨rfl, -, -, hpos, -⟩ := cropRgba_eq_ok h
  exact ⟨img, himg, hpos, rfl⟩

end Crop

def scrolledResultJson (path target : String) (contentHeight viewportHeight : F32)
    (tiles : Nat) : Json :=
  .object [("backend", .string SCREENSHOT_BACKEND_SCREENCAPTURE),
    ("content_height", contentHeight.toJson), ("mode", .string "scrolled"),
    ("path", .string path), ("target", .string target), ("tiles", .number (.int tiles)),
    ("viewport_height", viewportHeight.toJson)]

/-- What the callbacks of the host answer, call by call. -/
structure CaptureHost where
  setOffset : Nat → F32 → Except String Unit
  waitPaint : Nat → Except String Unit
  captureWindowPng : Nat → Except String (List UInt8)

/-- What one call of `run_scrolled_capture_sync` is given. -/
structure ScrolledCaptureSync where
  codec : PngCodec
  display : F32 → String
  target : String
  metrics : ScrollMetrics
  host : CaptureHost
  windowSize : F32 × F32
  maxHeightPx : Nat

/-- What comes of a capture: every offset that was set, in order, the local `stitched`, and what is
returned. -/
structure ScrolledCaptureRun where
  offsets : List F32
  stitched : Except String RgbaImage
  result : Except String (List UInt8 × Json)

namespace ScrolledCaptureSync

variable (c : ScrolledCaptureSync)

def tiles : Except String (List TileSpec) := planScrollTiles c.display c.metrics c.maxHeightPx

/-- One round of the capture loop, its `n`-th: scroll, wait for the paint, grab the window and crop
the slice. -/
def captureTile (n : Nat) (spec : TileSpec) : Except String RgbaImage := do
  c.host.setOffset n spec.offsetY
  c.host.waitPaint n
  let png ← c.host.captureWindowPng n
  cropWindowPng c.codec c.display png c.windowSize.1 c.windowSize.2 c.metrics.viewport
    spec.skipTopPx spec.takeHeightPx

/-- The capture loop from its `n`-th round on: the offsets that it sets, and the slices. -/
def captureTiles : Nat → List TileSpec → List F32 × Except String (List RgbaImage)
  | _, [] => ([], .ok [])
  | n, spec :: specs => match c.captureTile n spec with
    | .error err => ([spec.offsetY], .error err)
    | .ok slice =>
      let rest := captureTiles (n + 1) specs
      (spec.offsetY :: rest.1, rest.2.map (slice :: ·))

/-- Encode what was stitched, with what is said about it. -/
def finish (tiles : Nat) (stitched : RgbaImage) : Except String (List UInt8 × Json) := do
  let bytes ← encodePngRgba c.codec stitched
  if MAX_SCROLLED_PNG_BYTES < bytes.length then
    throw s!"stitched png exceeds {MAX_SCROLLED_PNG_BYTES} bytes ({bytes.length})"
  return (bytes, scrolledResultJson "" c.target
    (c.metrics.contentHeight.max c.metrics.viewport.h) c.metrics.viewport.h tiles)

/-- What the closure inside `run_scrolled_capture_sync` makes: the offsets that it sets, what it
stitches and what it returns. -/
def capture : ScrolledCaptureRun :=
  match c.tiles with
  | .error err => ⟨[], .error err, .error err⟩
  | .ok tiles =>
    let loop := c.captureTiles 0 tiles
    let stitched := loop.2 >>= stitchTilesVertically
    ⟨loop.1, stitched, stitched >>= c.finish tiles.length⟩

/-- Drive scroll, wait, capture and stitch, and restore the original offset. -/
def runScrolledCaptureSync : ScrolledCaptureRun :=
  let original := c.metrics.offsetY
  let run := c.capture
  let restore := c.host.setOffset run.offsets.length original
  { run with
    offsets := run.offsets ++ [original]
    result := match run.result, restore with
      | .ok v, .ok _ => .ok v
      | .ok _, .error err => .error s!"restore scroll failed: {err}"
      | .error err, _ => .error err }

section Complete

/-- The window as the host grabs it in the `n`-th round. -/
def windowImage (n : Nat) : Except String RgbaImage :=
  c.host.captureWindowPng n >>= decodePngRgba c.codec

/-- The rows that the `n`-th tile asks for. -/
def rowsOf (tile : TileSpec × Nat) : Nat :=
  match c.windowImage tile.2 with
  | .ok img => tileRows img c.windowSize.1 tile.1.takeHeightPx
  | .error _ => 0

/-- The picture of a tile's round goes down to the end of the tile. -/
def Reaches (tile : TileSpec × Nat) : Prop :=
  ∀ img, c.windowImage tile.2 = .ok img →
    clipTop img c.windowSize.1 c.windowSize.2 c.metrics.viewport tile.1.skipTopPx +
      tileRows img c.windowSize.1 tile.1.takeHeightPx ≤ img.height

/-- Every planned tile is in the picture whole. -/
def AllReach : Prop := ∀ tiles, c.tiles = .ok tiles → ∀ tile ∈ tiles.zipIdx, c.Reaches tile

/-- No tile of a picture that is returned was shortened, and the user's offset is set again. -/
def CompleteAndRestored : Prop :=
  (∀ v, c.runScrolledCaptureSync.result = .ok v → ∃ tiles stitched, c.tiles = .ok tiles ∧
    c.runScrolledCaptureSync.stitched = .ok stitched ∧
    encodePngRgba c.codec stitched = .ok v.1 ∧
    stitched.height = (tiles.zipIdx.map c.rowsOf).sum) ∧
  c.runScrolledCaptureSync.offsets.getLast? = some c.metrics.offsetY

theorem runScrolledCaptureSync_restores :
    c.runScrolledCaptureSync.offsets.getLast? = some c.metrics.offsetY := List.getLast?_concat

variable {c}

/-- A slice has at most the rows of its tile, and all of them when the picture reaches that far. -/
theorem captureTile_height (tile : TileSpec × Nat) (slice : RgbaImage)
    (h : c.captureTile tile.2 tile.1 = .ok slice) :
    slice.height ≤ c.rowsOf tile ∧ (slice.height = c.rowsOf tile ↔ c.Reaches tile) := by
  obtain ⟨-, -, h⟩ := bind_eq_ok.mp h
  obtain ⟨-, -, h⟩ := bind_eq_ok.mp h
  obtain ⟨png, hpng, h⟩ := bind_eq_ok.mp h
  obtain ⟨img, himg, hpos, hheight⟩ := cropWindowPng_height h
  have hwindow : c.windowImage tile.2 = .ok img := bind_eq_ok.mpr ⟨png, hpng, himg⟩
  have hrows : c.rowsOf tile = tileRows img c.windowSize.1 tile.1.takeHeightPx := by
    simp only [rowsOf, hwindow]
  have hreaches : c.Reaches tile ↔
      clipTop img c.windowSize.1 c.windowSize.2 c.metrics.viewport tile.1.skipTopPx +
        tileRows img c.windowSize.1 tile.1.takeHeightPx ≤ img.height := by
    simp only [Reaches, hwindow, Except.ok.injEq, forall_eq']
  rw [hrows, hreaches]
  omega

/-- The slices of a loop that gets to its end are those of its tiles. -/
theorem captureTiles_eq_ok {n : Nat} {specs : List TileSpec} {slices : List RgbaImage}
    (h : (c.captureTiles n specs).2 = .ok slices) :
    List.Forall₂ (fun tile slice => c.captureTile tile.2 tile.1 = .ok slice) (specs.zipIdx n)
      slices := by
  induction specs generalizing n slices with
  | nil =>
    obtain rfl : [] = slices := Except.ok.inj h
    exact .nil
  | cons spec specs ih =>
    cases htile : c.captureTile n spec with
    | error err => simp [captureTiles, htile] at h
    | ok slice =>
      simp only [captureTiles, htile] at h
      cases hrest : (c.captureTiles (n + 1) specs).2 with
      | error err => simp [hrest, Except.map] at h
      | ok rest =>
        simp only [hrest, Except.map, Except.ok.injEq] at h
        subst h
        exact .cons htile (ih hrest)

/-- What a capture that is returned went through. -/
theorem result_eq_ok {v : List UInt8 × Json} (h : c.runScrolledCaptureSync.result = .ok v) :
    ∃ tiles slices stitched, c.tiles = .ok tiles ∧ (c.captureTiles 0 tiles).2 = .ok slices ∧
      stitchTilesVertically slices = .ok stitched ∧
      c.runScrolledCaptureSync.stitched = .ok stitched ∧
      encodePngRgba c.codec stitched = .ok v.1 := by
  have hrun : c.capture.result = .ok v := by
    cases hresult : c.capture.result with
    | error err => simp [runScrolledCaptureSync, hresult] at h
    | ok v' =>
      cases hrestore : c.host.setOffset c.capture.offsets.length c.metrics.offsetY with
      | error err => simp [runScrolledCaptureSync, hresult, hrestore] at h
      | ok _ => simpa [runScrolledCaptureSync, hresult, hrestore] using h
  cases htiles : c.tiles with
  | error err => simp [capture, htiles] at hrun
  | ok tiles =>
    simp only [capture, htiles] at hrun
    obtain ⟨stitched, hstitched, hfinish⟩ := bind_eq_ok.mp hrun
    obtain ⟨bytes, hbytes, hfinish⟩ := bind_eq_ok.mp hfinish
    obtain ⟨slices, hslices, hstitch⟩ := bind_eq_ok.mp hstitched
    simp only [refuse_eq_ok] at hfinish
    have hv : bytes = v.1 := congrArg Prod.fst (Except.ok.inj hfinish.2)
    refine ⟨tiles, slices, stitched, rfl, hslices, hstitch, ?_, hv ▸ hbytes⟩
    simp only [runScrolledCaptureSync, capture, htiles]
    exact hstitched

/-- The PNG of one opaque pixel. -/
def onePixelPng : List UInt8 :=
  [137, 80, 78, 71, 13, 10, 26, 10, 0, 0, 0, 13, 73, 72, 68, 82, 0, 0, 0, 1, 0, 0, 0, 1, 8, 6, 0,
    0, 0, 31, 21, 196, 137, 0, 0, 0, 13, 73, 68, 65, 84, 120, 156, 99, 100, 231, 224, 252, 15, 0,
    1, 79, 1, 25, 235, 234, 101, 159, 0, 0, 0, 0, 73, 69, 78, 68, 174, 66, 96, 130]

/-- The codec at that PNG. -/
def onePixelCodec : PngCodec where
  read bytes :=
    if bytes = onePixelPng then .ok ⟨1, 1, .rgba, .eight, [7, 8, 9, 255]⟩
    else .error (.info "Invalid PNG signature.")
  write img :=
    if img = ⟨1, 1, [7, 8, 9, 255]⟩ then .ok onePixelPng
    else .error (.header "Zero width not allowed")

/-- A scroller three pixels high in a window that shows one of them. -/
def onePixelCapture : ScrolledCaptureSync where
  codec := onePixelCodec
  display := fun _ => ""
  target := "todo-list-scroll"
  metrics := ⟨⟨.finite 0, .finite 0, .finite 1, .finite 3⟩, .finite 3, .finite 0⟩
  host := ⟨fun _ _ => .ok (), fun _ => .ok (), fun _ => .ok onePixelPng⟩
  windowSize := (.finite 1, .finite 1)
  maxHeightPx := 16384

end Complete

end ScrolledCaptureSync

end GpuiAgent
