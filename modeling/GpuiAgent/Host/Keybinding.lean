import GpuiAgent.Framework.RustString
import GpuiAgent.Host.Protocol

namespace GpuiAgent

open Framework

def KEYBINDING_UNAVAILABLE : String := "keybinding_unavailable"

def keybindingUnavailable (detail : String) : String := s!"{KEYBINDING_UNAVAILABLE}: {detail}"

/-- One row of the Action-id catalog. -/
structure KeybindingInfo where
  id : String
  chord : String
  scope : KeybindingScope
  dangerous : Bool
  deriving DecidableEq

/-- The fields of a keybinding op that the gate reads. -/
structure KeybindingRequest where
  binding : String
  chord : Option String
  scope : KeybindingScope
  confirm : Bool
  activate : Bool

def KeybindingRequest.fromOp : Op → Except String KeybindingRequest
  | .keybinding binding chord scope confirm activate =>
    .ok ⟨binding, chord, scope, confirm, activate⟩
  | _ => .error "not a keybinding fire op"

def isQuitBinding (binding : String) : Bool :=
  let n := toAsciiLowercase (trim binding)
  n = "quit" || n = "app.quit" || endsWith n ".quit"

def opIsConfirmedQuit : Op → Bool
  | .keybinding binding _ _ confirm _ => confirm && isQuitBinding binding
  | _ => false

def normalizeChord (chord : String) : String :=
  replace (replace ("-".intercalate (splitWhitespace (toAsciiLowercase (trim chord))))
    "command" "cmd") "control" "ctrl"

def isQuitChord (chord : String) : Bool :=
  ["cmd-q", "super-q", "meta-q", "win-q"].contains (normalizeChord chord)

def bindingIsDangerous (entry : KeybindingInfo) : Bool :=
  entry.dangerous || isQuitBinding entry.id || isQuitChord entry.chord

def KeybindingInfo.toJson (row : KeybindingInfo) : Json :=
  .object [("chord", .string row.chord), ("dangerous", .bool row.dangerous),
    ("id", .string row.id), ("scope", .string row.scope.asStr)]

def keybindingListJson (catalog : List KeybindingInfo) : Json :=
  .object [("keybindings", .array (catalog.map fun row =>
    { row with dangerous := bindingIsDangerous row }.toJson))]

def chordsEq (registered given : String) : Bool :=
  normalizeChord registered = normalizeChord given

/-- The gate every host applies before it fires an Action: lookup by id and scope, then the chord,
`activate`, focus and `confirm` checks. -/
def authorizeKeybinding (catalog : List KeybindingInfo) (request : KeybindingRequest)
    (appFocused : Bool) : Except String KeybindingInfo := do
  let binding := trim request.binding
  if binding.isEmpty then throw "keybinding requires binding (Action id)"
  let byId := catalog.filter fun row => row.id = binding
  if byId.isEmpty then throw s!"unknown binding `{binding}`"
  let actual := "/".intercalate (byId.map fun row => row.scope.asStr)
  let some entry := byId.find? fun row => row.scope = request.scope
    | throw s!"binding `{binding}` is registered as {actual}, not {request.scope.asStr}"
  if let some chord := (request.chord.map trim).filter fun s => !s.isEmpty then
    if !chordsEq entry.chord chord then
      throw s!"chord `{chord}` does not match binding `{binding}` ({entry.chord})"
  if request.scope = .global ∧ request.activate then
    throw "activate=true is only valid for scope=focused"
  if request.scope = .focused ∧ !appFocused ∧ !request.activate then
    throw (keybindingUnavailable ("app not focused (a focused-scope binding needs the OS-focused " ++
      "window; pass activate=true / `--activate` to bring it to front first)"))
  if bindingIsDangerous entry ∧ !request.confirm then
    throw s!"confirm=true is required for dangerous keybinding `{binding}`"
  return entry

/-- What passes the gate is the catalog's row for the trimmed id and the scope. -/
theorem authorizeKeybinding_ok {catalog : List KeybindingInfo} {request : KeybindingRequest}
    {appFocused : Bool} {entry : KeybindingInfo}
    (h : authorizeKeybinding catalog request appFocused = .ok entry) :
    entry ∈ catalog ∧ entry.id = trim request.binding ∧ entry.scope = request.scope := by
  have hfind : (catalog.filter fun row => row.id = trim request.binding).find?
      (fun row => row.scope = request.scope) = some entry := by
    unfold authorizeKeybinding at h
    simp only [bind, Except.bind, pure, Except.pure, throw, throwThe, MonadExceptOf.throw] at h
    cases hrow : (catalog.filter fun row => row.id = trim request.binding).find?
        (fun row => row.scope = request.scope) with
    | none =>
      rw [hrow] at h
      split_ifs at h
    | some row =>
      rw [hrow] at h
      dsimp only at h
      cases hchord : (request.chord.map trim).filter fun s => !s.isEmpty with
      | none =>
        rw [hchord] at h
        split_ifs at h
        rw [Except.ok.inj h]
      | some chord =>
        rw [hchord] at h
        cases hc : chordsEq row.chord chord with
        | false =>
          simp only [hc, Bool.not_false, if_true] at h
          split_ifs at h
        | true =>
          simp only [hc, Bool.not_true, Bool.false_eq_true, if_false] at h
          split_ifs at h
          rw [Except.ok.inj h]
  have hmem := List.mem_filter.mp (List.mem_of_find?_eq_some hfind)
  exact ⟨hmem.1, of_decide_eq_true hmem.2, by simpa using List.find?_some hfind⟩

def authorizeKeybindingOp (op : Op) (catalog : List KeybindingInfo) (appFocused : Bool) :
    Except String KeybindingInfo := do
  authorizeKeybinding catalog (← KeybindingRequest.fromOp op) appFocused

end GpuiAgent
