import GpuiAgent.Tree.Diff

namespace GpuiAgent

def PROTOCOL_VERSION : Nat := 2

inductive DeliveryMode where
  | semantic | virtual
  deriving DecidableEq

def DeliveryMode.isVirtual : DeliveryMode → Bool
  | virtual => true
  | semantic => false

inductive KeybindingScope where
  | focused | global
  deriving DecidableEq

def KeybindingScope.asStr : KeybindingScope → String
  | focused => "focused"
  | global => "global"

inductive ScreenshotMode where
  | viewport | scrolled
  deriving DecidableEq

inductive SnapshotFormat where
  | json | compact
  deriving DecidableEq

structure AssertSpec where
  target : String
  name : Option String := none
  value : Option String := none
  role : Option String := none
  checked : Option Bool := none
  exists' : Option Bool := none
  visible : Option Bool := none
  inViewport : Option Bool := none
  deriving DecidableEq

/-- The operations of the protocol. -/
inductive Op where
  | hello
  | snapshot (since : Option Nat) (format : Option SnapshotFormat) (fingerprints : Option Bool)
  | revision
  | events (since : Option Nat) (limit : Option Nat)
  | click (target : String) (delivery : DeliveryMode) (expectFingerprint : Option UInt64)
  | type (target text : String) (delivery : DeliveryMode) (expectFingerprint : Option UInt64)
  | setValue (target value : String) (expectFingerprint : Option UInt64)
  | key (target key : String) (delivery : DeliveryMode) (expectFingerprint : Option UInt64)
  | keybinding (binding : String) (chord : Option String) (scope : KeybindingScope)
      (confirm activate : Bool)
  | keybindings
  | assert (spec : AssertSpec)
  | invoke (name : String) (args : Json)
  | wait (timeoutMs : Option Nat)
  | waitUntil (timeoutMs : Nat) (spec : AssertSpec)
  | shutdown
  | screenshot (path : Option String) (mode : ScreenshotMode) (target : Option String)
      (maxHeightPx : Option Nat)
  deriving DecidableEq

namespace Op

/-- Attach the fingerprint gate to a mutating op; other ops are unchanged. -/
def withFingerprint (op : Op) (fingerprint : UInt64) : Op :=
  match op with
  | click target delivery _ => click target delivery (some fingerprint)
  | type target text delivery _ => type target text delivery (some fingerprint)
  | setValue target value _ => setValue target value (some fingerprint)
  | key target k delivery _ => key target k delivery (some fingerprint)
  | op => op

/-- Target and expected fingerprint of a gated op. -/
def fingerprintGate : Op → Option (String × UInt64)
  | click target _ (some fp) | type target _ _ (some fp) | setValue target _ (some fp)
  | key target _ _ (some fp) => some (target, fp)
  | _ => none

def delivery : Op → DeliveryMode
  | click _ delivery _ | type _ _ delivery _ | key _ _ delivery _ => delivery
  | _ => .semantic

def isVirtualInput : Op → Bool
  | click _ delivery _ | type _ _ delivery _ | key _ _ delivery _ => delivery.isVirtual
  | _ => false

end Op

inductive HelloAuth where
  | none | required
  deriving DecidableEq

def HelloAuth.fromTokenConfigured (token : Option String) : HelloAuth :=
  if token.isSome then required else none

structure HelloInfo where
  protocol : Nat
  app : String
  platform : PlatformKind
  os : String
  ready : Bool
  deliveries : List DeliveryMode
  auth : HelloAuth
  bundleId : Option String
  executable : Option String
  features : List String
  deriving DecidableEq

structure Request where
  v : Nat
  id : String
  token : Option String
  auth : Option String
  op : Op
  deriving DecidableEq

def Request.new (id : String) (op : Op) : Request := ⟨PROTOCOL_VERSION, id, none, none, op⟩

structure Response where
  v : Nat
  id : String
  ok : Bool
  error : Option String := none
  hello : Option HelloInfo := none
  tree : Option UiTree := none
  result : Option Json := none
  fingerprints : Option (Std.TreeMap String UInt64) := none
  rev : Option Nat := none

namespace Response

def success (id : String) : Response := { v := PROTOCOL_VERSION, id, ok := true }

def err (id error : String) : Response :=
  { v := PROTOCOL_VERSION, id, ok := false, error := some error }

end Response

/-- Optional payload of a dispatched op. -/
structure DispatchResult where
  value : Option Json
  deriving DecidableEq

namespace DispatchResult

def empty : DispatchResult := ⟨none⟩

def json (value : Json) : DispatchResult := ⟨some value⟩

end DispatchResult

/-- The reply to a dispatched op. -/
def Response.ofDispatch (id : String) : Except String DispatchResult → Response
  | .ok result => { success id with result := result.value }
  | .error error => err id error

end GpuiAgent
