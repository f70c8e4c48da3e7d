import GpuiAgent.Framework.RustString
import GpuiAgent.Tree.UiTree

namespace GpuiAgent

open Framework

def VIRTUAL_UNAVAILABLE : String := "virtual_unavailable"

def virtualUnavailable (detail : String) : String := s!"{VIRTUAL_UNAVAILABLE}: {detail}"

/-- Centre of a node's bounds. -/
def hitPoint (bounds : Bounds) : Except String (F32 × F32) :=
  if bounds.hasArea then .ok bounds.center
  else .error (virtualUnavailable ("target has zero bounds (no layout / hit-test). " ++
    "Headless hosts never fill bounds. On desktop, wait for a painted frame " ++
    "or use delivery=semantic."))

structure VirtualPointerClick where
  target : String
  x : F32
  y : F32

def planClick (tree : UiTree) (target : String) : Except String VirtualPointerClick := do
  let n ← tree.requireId target
  let (x, y) ← hitPoint n.label.bounds
  return ⟨target, x, y⟩

def looksLikeModifierChord (key : String) : Bool :=
  let lower := toAsciiLowercase key
  contains lower "-" ||
    ["cmd", "ctrl", "alt", "shift", "super", "meta", "win"].any fun pre => startsWith lower pre

/-- GPUI keystroke token of a protocol key. -/
def keystrokeToken (key : String) : Except String String :=
  let trimmed := trim key
  if trimmed.isEmpty then .error (virtualUnavailable "empty key")
  else if looksLikeModifierChord trimmed then
    .error (virtualUnavailable
      s!"modifiers are not allowed on free-form key `{trimmed}`; use op keybinding")
  else match toAsciiLowercase trimmed with
    | "enter" | "return" => .ok "enter"
    | "backspace" => .ok "backspace"
    | "tab" => .ok "tab"
    | "escape" | "esc" => .ok "escape"
    | "space" | " " => .ok "space"
    | "delete" | "del" => .ok "delete"
    | other =>
      if other.length = 1 then .ok other
      else .error (virtualUnavailable (s!"unhandled virtual key `{other}` " ++
        "(first slice: Enter, Backspace, Tab, Escape, Delete, Space, ASCII)"))

/-- One keystroke token per character; `debugChar` is the `{:?}` form of a character. -/
def textKeystrokes (debugChar : Char → String) (text : String) : Except String (List String) :=
  text.toList.mapM fun ch =>
    if ch = ' ' then .ok "space"
    else if ch = '\n' then .ok "enter"
    else if ch = '\t' then .ok "tab"
    else if 0x21 ≤ ch.toNat ∧ ch.toNat ≤ 0x7e then .ok (.singleton ch)
    else .error (virtualUnavailable
      s!"virtual type is ASCII-only in this slice (got {debugChar ch})")

/-- The painted agent cursor. -/
structure AgentCursor where
  x : F32
  y : F32
  visible : Bool

namespace AgentCursor

def sessionDefault : AgentCursor := ⟨.finite 0, .finite 0, false⟩

def moveTo (_ : AgentCursor) (x y : F32) : AgentCursor := ⟨x, y, true⟩

end AgentCursor

end GpuiAgent
