import GpuiAgent.Framework.Result
import GpuiAgent.Host.Screenshot
import Mathlib.Algebra.Ring.Nat

namespace GpuiAgent

open Framework

/-- Eight-bit RGBA. -/
structure RgbaImage where
  width : Nat
  height : Nat
  pixels : List UInt8
  deriving DecidableEq

namespace RgbaImage

/-- The sizes are `usize` here. -/
def new (width height : Nat) (pixels : List UInt8) : Except String RgbaImage := do
  let need := width * height * 4
  if 2 ^ 64 ≤ need then throw "rgba image size overflow"
  if pixels.length ≠ need then
    throw s!"rgba buffer length {pixels.length} != {need} ({width}x{height})"
  return ⟨width, height, pixels⟩

def pixelIndex (img : RgbaImage) (x y : Nat) : Nat := (y * img.width + x) * 4

/-- There are four bytes for every pixel. -/
def WellFormed (img : RgbaImage) : Prop := img.pixels.length = img.width * img.height * 4

theorem new_eq_ok {width height : Nat} {pixels : List UInt8} {img : RgbaImage}
    (h : new width height pixels = .ok img) : img = ⟨width, height, pixels⟩ ∧ img.WellFormed := by
  simp only [new, refuse_eq_ok] at h
  obtain ⟨-, hlen, h⟩ := h
  obtain rfl := Except.ok.inj h
  exact ⟨rfl, not_not.mp hlen⟩

end RgbaImage

section Png

inductive ColorType where
  | grayscale | rgb | indexed | grayscaleAlpha | rgba
  deriving DecidableEq

inductive BitDepth where
  | one | two | four | eight | sixteen
  deriving DecidableEq

def ColorType.debug : ColorType → String
  | grayscale => "Grayscale"
  | rgb => "Rgb"
  | indexed => "Indexed"
  | grayscaleAlpha => "GrayscaleAlpha"
  | rgba => "Rgba"

def BitDepth.debug : BitDepth → String
  | one => "One"
  | two => "Two"
  | four => "Four"
  | eight => "Eight"
  | sixteen => "Sixteen"

/-- A frame as the `png` crate hands it out. -/
structure PngFrame where
  width : Nat
  height : Nat
  color : ColorType
  depth : BitDepth
  buf : List UInt8

inductive PngReadError where
  | info (err : String)
  | frame (err : String)

inductive PngWriteError where
  | header (err : String)
  | data (err : String)
  | finish (err : String)

/-- The `png` crate: what it reads from bytes, and the bytes it writes for an image. -/
structure PngCodec where
  read : List UInt8 → Except PngReadError PngFrame
  write : RgbaImage → Except PngWriteError (List UInt8)

/-- `chunks_exact(3)`, each with full alpha. -/
def rgbPixels : List UInt8 → List UInt8
  | r :: g :: b :: rest => r :: g :: b :: 255 :: rgbPixels rest
  | _ => []

/-- `chunks_exact(2)`, the first one gray and the second one alpha. -/
def grayAlphaPixels : List UInt8 → List UInt8
  | g :: a :: rest => g :: g :: g :: a :: grayAlphaPixels rest
  | _ => []

/-- The pixels of a frame of `n` pixels, by its colour type. -/
def framePixels (frame : PngFrame) (n : Nat) : Except String (List UInt8) :=
  match frame.color with
  | .rgba => if frame.buf.length = n * 4 then .ok frame.buf else .error "png rgba size mismatch"
  | .rgb =>
    if frame.buf.length = n * 3 then .ok (rgbPixels frame.buf)
    else .error "png rgb size mismatch"
  | .grayscale =>
    if frame.buf.length = n then .ok (frame.buf.flatMap fun g => [g, g, g, 255])
    else .error "png gray size mismatch"
  | .grayscaleAlpha =>
    if frame.buf.length = n * 2 then .ok (grayAlphaPixels frame.buf)
    else .error "png gray-alpha size mismatch"
  | .indexed => .error s!"unsupported png color type {frame.color.debug}"

def toRgba (frame : PngFrame) : Except String RgbaImage := do
  if frame.depth ≠ .eight then throw s!"unsupported png bit depth {frame.depth.debug}"
  let n := frame.width * frame.height
  if 2 ^ 64 ≤ n then throw "png size overflow"
  let pixels ← framePixels frame n
  RgbaImage.new frame.width frame.height pixels

def decodePngRgba (codec : PngCodec) (bytes : List UInt8) : Except String RgbaImage := do
  if !([0x89, 0x50, 0x4E, 0x47] : List UInt8).isPrefixOf bytes then
    throw (screenshotUnavailable "not a PNG")
  let frame ← (codec.read bytes).mapError fun
    | .info err => s!"png decode: {err}"
    | .frame err => s!"png frame: {err}"
  toRgba frame

def encodePngRgba (codec : PngCodec) (img : RgbaImage) : Except String (List UInt8) :=
  (codec.write img).mapError fun
    | .header err => s!"png encode header: {err}"
    | .data err => s!"png encode: {err}"
    | .finish err => s!"png encode finish: {err}"

/-- An image that was decoded has the pixels its size says. -/
theorem decodePngRgba_wellFormed {codec : PngCodec} {bytes : List UInt8} {img : RgbaImage}
    (h : decodePngRgba codec bytes = .ok img) : img.WellFormed := by
  simp only [decodePngRgba, refuse_eq_ok] at h
  obtain ⟨-, h⟩ := h
  obtain ⟨frame, -, h⟩ := bind_eq_ok.mp h
  simp only [toRgba, refuse_eq_ok] at h
  obtain ⟨-, -, h⟩ := h
  obtain ⟨pixels, -, h⟩ := bind_eq_ok.mp h
  exact (RgbaImage.new_eq_ok h).2

end Png

section Crop

/-- The bytes of the rows of a crop. -/
def cropRows (src : RgbaImage) (x y w h : Nat) : List UInt8 :=
  (List.range' y h).flatMap fun row => (src.pixels.drop (src.pixelIndex x row)).take (w * 4)

def cropRgba (src : RgbaImage) (x y w h : Nat) : Except String RgbaImage := do
  if w = 0 ∨ h = 0 then throw "crop size must be > 0"
  if 2 ^ 32 ≤ x + w ∨ src.width < x + w ∨ 2 ^ 32 ≤ y + h ∨ src.height < y + h then
    throw s!"crop ({x},{y},{w},{h}) outside {src.width}x{src.height}"
  RgbaImage.new w h (cropRows src x y w h)

/-- A crop is exactly as large as it was asked for, and lies in the image. -/
theorem cropRgba_eq_ok {src img : RgbaImage} {x y w h : Nat} (hok : cropRgba src x y w h = .ok img) :
    img = ⟨w, h, cropRows src x y w h⟩ ∧ img.WellFormed ∧ 0 < w ∧ 0 < h ∧
      x + w ≤ src.width ∧ y + h ≤ src.height := by
  simp only [cropRgba, refuse_eq_ok, not_or, not_lt] at hok
  obtain ⟨⟨hw, hh⟩, ⟨-, hright, -, hbottom⟩, hok⟩ := hok
  obtain ⟨rfl, hwf⟩ := RgbaImage.new_eq_ok hok
  exact ⟨rfl, hwf, Nat.pos_of_ne_zero hw, Nat.pos_of_ne_zero hh, hright, hbottom⟩

end Crop

section Stitch

/-- The height of the tiles so far with one more below them. -/
def stackTile (width height : Nat) (tile : RgbaImage × Nat) : Except String Nat := do
  if tile.1.width ≠ width then
    throw s!"tile {tile.2} width {tile.1.width} != first tile {width}"
  if tile.1.height = 0 then throw s!"tile {tile.2} height must be > 0"
  if 2 ^ 32 ≤ height + tile.1.height then throw "stitched height overflow"
  return height + tile.1.height

def stitchTilesVertically : List RgbaImage → Except String RgbaImage
  | [] => .error "scrolled screenshot produced no tiles"
  | first :: rest => do
    let tiles := first :: rest
    if first.width = 0 then throw "tile width must be > 0"
    let height ← tiles.zipIdx.foldlM (stackTile first.width) 0
    RgbaImage.new first.width height (tiles.flatMap RgbaImage.pixels)

theorem foldlM_stackTile {width : Nat} {tiles : List (RgbaImage × Nat)} {height total : Nat}
    (h : tiles.foldlM (stackTile width) height = .ok total) :
    total = height + (tiles.map fun tile => tile.1.height).sum := by
  induction tiles generalizing height with
  | nil => exact (Except.ok.inj h).symm
  | cons tile tiles ih =>
    rw [List.foldlM_cons] at h
    obtain ⟨next, hnext, h⟩ := bind_eq_ok.mp h
    simp only [stackTile, refuse_eq_ok] at hnext
    obtain ⟨-, -, -, hnext⟩ := hnext
    obtain rfl := Except.ok.inj hnext
    rw [ih h, List.map_cons, List.sum_cons, Nat.add_assoc]

/-- Stitching puts the tiles below each other and invents nothing. -/
theorem stitchTilesVertically_eq_ok {tiles : List RgbaImage} {img : RgbaImage}
    (h : stitchTilesVertically tiles = .ok img) :
    img.height = (tiles.map RgbaImage.height).sum ∧ img.pixels = tiles.flatMap RgbaImage.pixels ∧
      img.WellFormed := by
  cases tiles with
  | nil => cases h
  | cons first rest =>
    simp only [stitchTilesVertically, refuse_eq_ok] at h
    obtain ⟨-, h⟩ := h
    obtain ⟨height, hheight, h⟩ := bind_eq_ok.mp h
    obtain ⟨rfl, hwf⟩ := RgbaImage.new_eq_ok h
    refine ⟨?_, rfl, hwf⟩
    have hfst : ((first :: rest).zipIdx.map fun tile => tile.1.height) =
        ((first :: rest).zipIdx.map Prod.fst).map RgbaImage.height := by
      rw [List.map_map]
      rfl
    rw [foldlM_stackTile hheight, Nat.zero_add, hfst, List.zipIdx_map_fst]

end Stitch

end GpuiAgent
