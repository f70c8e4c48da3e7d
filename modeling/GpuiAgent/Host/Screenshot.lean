import GpuiAgent.Framework.RustString
import GpuiAgent.Host.Protocol

namespace GpuiAgent

open Framework

def SCREENSHOT_UNAVAILABLE : String := "screenshot_unavailable"

def screenshotUnavailable (detail : String) : String := s!"{SCREENSHOT_UNAVAILABLE}: {detail}"

def DEFAULT_MAX_HEIGHT_PX : Nat := 16384

structure ScreenshotSpec where
  path : Option String
  mode : ScreenshotMode
  target : Option String
  maxHeightPx : Option Nat

namespace ScreenshotSpec

/-- Protocol checks that need no pixel surface. -/
def validateRequest (spec : ScreenshotSpec) : Except String Unit := do
  if spec.mode = .scrolled then
    if ((spec.target.map trim).filter fun s => !s.isEmpty).isNone then
      throw "screenshot mode=scrolled requires target"
  if let some h := spec.maxHeightPx then
    if h = 0 then throw "max_height_px must be > 0"
    if DEFAULT_MAX_HEIGHT_PX < h then
      throw s!"max_height_px exceeds {DEFAULT_MAX_HEIGHT_PX} (got {h})"

end ScreenshotSpec

def requireScreenshotPath (path : Option String) : Except String String :=
  match (path.map trim).filter fun p => !p.isEmpty with
  | some path => .ok path
  | none => .error "screenshot requires path"

def SCREENSHOT_PATH_CONFINE_ERR : String :=
  "screenshot path must be a relative .png name under the host screenshot dir"

/-- The non-empty pieces of a path between slashes, `.` left out; `..` is kept. -/
def pathComponents (path : String) : List String :=
  ((path.toList.splitOn '/').map String.ofList).filter fun s => s ≠ "" && s ≠ "."

/-- Resolve a client path against `base`, both as lists of components. -/
def confineScreenshotPathIn (client : String) (base : List String) :
    Except String (List String) := do
  let client ← requireScreenshotPath (some client)
  if startsWith client "/" then throw SCREENSHOT_PATH_CONFINE_ERR
  let rel := pathComponents client
  if rel.any fun s => s = ".." || startsWith s "~" then throw SCREENSHOT_PATH_CONFINE_ERR
  let some file := rel.getLast? | throw "screenshot requires path"
  if !endsWith file ".png" || file.utf8ByteSize < 5 then
    throw "screenshot path must end with .png"
  if startsWith file "-" || startsWith file "." then
    throw "screenshot filename must not start with '-' or '.'"
  return base ++ rel

end GpuiAgent
