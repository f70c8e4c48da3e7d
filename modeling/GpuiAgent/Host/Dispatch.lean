import GpuiAgent.Host.EventRing
import GpuiAgent.Host.Keybinding
import GpuiAgent.Host.Screenshot
import GpuiAgent.Tree.Compact

namespace GpuiAgent

open Framework Framework.RoseTree

def NONCE_LEN : Nat := 32

/-- What the host code takes from the machine and from other crates: HMAC verification, the process
identity, the `{:?}` form of a string and the screenshot directory. -/
structure Env where
  hmacVerify : String → List UInt8 → String → Bool
  executable : String
  bundleId : Option String
  connectId : Option String
  os : String
  debugStr : String → String
  screenshotDir : List String

/-- An environment that verifies no token and reports nothing. -/
def Env.bare : Env where
  hmacVerify := fun _ _ _ => false
  executable := ""
  bundleId := none
  connectId := none
  os := ""
  debugStr := fun s => s
  screenshotDir := []

/-- The host half of the control plane, over its state. -/
structure AgentHost (σ : Type) where
  hello : σ → HelloInfo
  snapshot : σ → UiTree
  dispatch : σ → Op → Except String DispatchResult × σ
  screenshot : σ → ScreenshotSpec → Except String DispatchResult
  keybindings : σ → List KeybindingInfo
  isAppFocused : σ → Bool
  revision : σ → Option Nat
  eventRing : σ → Option EventRing

def STALE_TARGET : String := "stale_target"
def TARGET_GONE : String := "target_gone"

def isStaleDispatchError (err : String) : Bool :=
  startsWith err STALE_TARGET || startsWith err TARGET_GONE

/-- Version and HMAC gate. -/
def authorizeRequest (env : Env) (req : Request) (expectedToken : Option String)
    (sessionNonce : Option (List UInt8)) : Except Response Unit := do
  if req.v ≠ PROTOCOL_VERSION then
    throw (.err req.id s!"unsupported protocol version {req.v} (want {PROTOCOL_VERSION})")
  if let some expected := expectedToken then
    if req.token.any fun t => !t.isEmpty then
      throw (.err req.id "token must not be sent on the wire")
    let some nonce := sessionNonce.filter fun n => n.length = NONCE_LEN
      | throw (.err req.id "automation token required")
    match req.auth with
    | some auth =>
      if !env.hmacVerify expected nonce auth then throw (.err req.id "invalid automation token")
    | none => throw (.err req.id "automation token required")

theorem authorizeRequest_untokened {env : Env} {req : Request} (h : req.v = PROTOCOL_VERSION) :
    authorizeRequest env req none none = .ok () := by
  simp [authorizeRequest, h]
  rfl

/-- How many past revisions the ring keeps. -/
def REV_RING_DEPTH : Nat := 8

/-- Per-connection snapshot cache, oldest revision first. -/
structure TreeCache where
  ring : List (Nat × UiTree) := []
  rebuilds : Nat := 0

namespace TreeCache

/-- The cached tree when the host still reports its revision, otherwise a new snapshot. -/
def snapshot {σ : Type} (host : AgentHost σ) (s : σ) (cache : TreeCache) : UiTree × TreeCache :=
  let hit := (host.revision s).bind fun rev => cache.ring.getLast?.filter fun e => e.1 = rev
  match hit with
  | some (_, tree) => (tree, cache)
  | none =>
    let tree := host.snapshot s
    match (host.revision s).or tree.rev with
    | some rev =>
      let tree := { tree with rev := some rev }
      let ring := cache.ring ++ [(rev, tree)]
      (tree, ⟨ring.drop (ring.length - REV_RING_DEPTH), cache.rebuilds + 1⟩)
    | none => (tree, { cache with rebuilds := cache.rebuilds + 1 })

def treeAt (cache : TreeCache) (rev : Nat) : Option UiTree :=
  (cache.ring.find? fun e => e.1 = rev).map Prod.snd

end TreeCache

def IN_VIEWPORT_UNAVAILABLE : String := "in_viewport_unavailable"

def inViewportUnavailable (detail : String) : String := s!"{IN_VIEWPORT_UNAVAILABLE}: {detail}"

def isInViewportUnavailable (error : String) : Bool :=
  error = IN_VIEWPORT_UNAVAILABLE || startsWith error (IN_VIEWPORT_UNAVAILABLE ++ ":")

mutual
/-- The innermost window at or above the first node with id `target` that has one. -/
def windowForTarget (target : String) (current : Option NodeFields) : UiNode → Option NodeFields
  | node a cs =>
    let window := if a.role = Role.WINDOW then some a else current
    if a.id = target then window else windowForTargets target window cs
def windowForTargets (target : String) (current : Option NodeFields) :
    List UiNode → Option NodeFields
  | [] => none
  | n :: ns => (windowForTarget target current n).orElse fun _ => windowForTargets target current ns
end

def windowClip (tree : UiTree) (target : String) : Except String Bounds :=
  match windowForTargets target none tree.nodes with
  | some window => .ok window.bounds
  | none => .error (inViewportUnavailable s!"no window clip for `{target}`")

def nodeInViewport (tree : UiTree) (n : NodeFields) : Except String Bool := do
  if tree.platform = .headless then
    throw (inViewportUnavailable "headless hosts have no painted window clip")
  if !n.bounds.hasArea then throw (inViewportUnavailable s!"node `{n.id}` bounds are zero")
  let clip ← windowClip tree n.id
  if !clip.hasArea then
    throw (inViewportUnavailable s!"window clip for `{n.id}` has zero bounds")
  return n.bounds.intersects clip

/-- One field check of `assert_tree`. -/
def assertField (target field expected got : String) (holds : Bool) : Except String Unit :=
  if holds then .ok ()
  else .error s!"node `{target}` {field}: expected {expected}, got {got}"

def debugOption (debug : α → String) : Option α → String
  | some a => s!"Some({debug a})"
  | none => "None"

def assertTree (env : Env) (tree : UiTree) (spec : AssertSpec) : Except String Unit := do
  if spec.exists'.getD true then
    let n := (← tree.requireId spec.target).label
    let check := assertField spec.target
    if let some name := spec.name then
      check "name" (env.debugStr name) (env.debugStr n.name) (n.name = name)
    if let some value := spec.value then
      check "value" (env.debugStr value) (debugOption env.debugStr n.value) (n.value = some value)
    if let some role := spec.role then
      check "role" (env.debugStr role) (env.debugStr n.role) (n.role = role)
    if let some checked := spec.checked then
      check "checked" (toString checked) (debugOption toString n.checked)
        (n.checked = some checked)
    if let some visible := spec.visible then
      check "visible" (toString visible) (toString n.visible) (n.visible = visible)
    if let some expected := spec.inViewport then
      let actual ← nodeInViewport tree n
      check "in_viewport" (toString expected) (toString actual) (actual = expected)
  else
    match (tree.findAll spec.target).length with
    | 0 => return
    | 1 => throw s!"node `{spec.target}` exists but should be absent"
    | n => throw s!"duplicate id `{spec.target}` ({n} nodes)"

def EventLevel.asStr : EventLevel → String
  | trace => "trace"
  | debug => "debug"
  | info => "info"
  | warn => "warn"
  | error => "error"

def AgentEvent.toJson (e : AgentEvent) : Json :=
  .object [("level", .string e.level.asStr), ("message", .string e.message), ("seq", .nat e.seq),
    ("target", .string e.target)]

def EventPoll.toJson (p : EventPoll) : Json :=
  .object [("events", .array (p.events.map AgentEvent.toJson)), ("lagged", .bool p.lagged),
    ("latest", .nat p.latest)]

section Handle

variable {σ : Type} (env : Env) (host : AgentHost σ)

def fillHelloIdentity (hello : HelloInfo) : HelloInfo :=
  let hello :=
    if (hello.executable.getD "").isEmpty then { hello with executable := some env.executable }
    else hello
  if (hello.bundleId.getD "").isEmpty then { hello with bundleId := env.bundleId.or env.connectId }
  else hello

def addFeature (hello : HelloInfo) (feature : String) : HelloInfo :=
  if hello.features.contains feature then hello
  else { hello with features := hello.features ++ [feature] }

def helloResponse (s : σ) (id : String) (expectedToken : Option String) : Response :=
  let hello := { host.hello s with auth := .fromTokenConfigured expectedToken }
  let hello := fillHelloIdentity env hello
  let hello := ["snapshot_since", "snapshot_compact", "expect_fingerprint"].foldl addFeature hello
  let hello := if (host.revision s).isSome then addFeature hello "rev" else hello
  let hello := if (host.eventRing s).isSome then addFeature hello "events" else hello
  { Response.success id with hello := some hello }

/-- `wait` on a host that does not change while it is borrowed: ready at once or never. -/
def waitUntilReady (s : σ) (id : String) (expectedToken : Option String) : Response :=
  let hello := host.hello s
  if hello.ready then
    let hello := { hello with auth := .fromTokenConfigured expectedToken }
    { Response.success id with hello := some (fillHelloIdentity env hello) }
  else .err id "wait timed out"

/-- `wait_until` with `polls` more rounds before the deadline. -/
def waitUntilAssert (s : σ) (id : String) (spec : AssertSpec) :
    Nat → TreeCache → Response × TreeCache
  | polls, cache =>
    let (tree, cache) := cache.snapshot host s
    match assertTree env tree spec with
    | .ok () => (.success id, cache)
    | .error error =>
      if isInViewportUnavailable error ∧ tree.platform = .headless then (.err id error, cache)
      else match polls with
        | 0 => (.err id s!"wait_until timed out: {error}", cache)
        | polls + 1 => waitUntilAssert s id spec polls cache

def NodeFields.toJsonWith (a : NodeFields) (children : List Json) : List (String × Json) :=
  let fields := a.toValue
  if children.isEmpty then fields
  else
    (fields.takeWhile fun e => e.1 < "children") ++ [("children", .array children)] ++
      fields.dropWhile fun e => e.1 < "children"

mutual
/-- `serde_json::to_value` of a node. -/
def nodeFieldsJson : UiNode → List (String × Json)
  | node a cs => a.toJsonWith (nodesJson cs)
def nodesJson : List UiNode → List Json
  | [] => []
  | n :: ns => .object (nodeFieldsJson n) :: nodesJson ns
end

def AddedNode.toJson (a : AddedNode) : Json :=
  let fields := nodeFieldsJson a.node
  match a.parent with
  | none => .object fields
  | some p => .object ((fields.takeWhile fun e => e.1 < "parent") ++ [("parent", .string p)] ++
      fields.dropWhile fun e => e.1 < "parent")

def TreeDiff.toJson (d : TreeDiff) : Json :=
  .object [("added", .array (d.added.map AddedNode.toJson)),
    ("changed", .array (d.changed.map fun c =>
      .object [("fields", .object c.fields), ("id", .string c.id)])),
    ("removed", .strings d.removed)]

def snapshotResponse (s : σ) (cache : TreeCache) (id : String) (since : Option Nat)
    (format : Option SnapshotFormat) (fingerprints : Option Bool) : Response × TreeCache :=
  let (tree, cache) := cache.snapshot host s
  let resp := { Response.success id with
    rev := tree.rev
    fingerprints := if fingerprints = some true then some tree.fingerprintMap else none }
  let resp :=
    if format = some .compact then
      { resp with result := some (.object [("compact", .string (compactLines tree))]) }
    else match since with
      | none => { resp with tree := some tree }
      | some r =>
        if tree.rev = some r then
          { resp with result := some (.object [("unchanged", .bool true)]) }
        else match tree.rev.bind fun _ => cache.treeAt r with
          | some old =>
            { resp with result := some (.object [("diff", (diffTrees old tree).toJson)]) }
          | none =>
            { resp with tree := some tree, result := some (.object [("full", .bool true)]) }
  (resp, cache)

/-- The fingerprint gate: the refusal of an op whose target is gone or has changed. -/
def fingerprintRefusal (tree : UiTree) (target : String) (expected : UInt64) : Option String :=
  match tree.fingerprintOf target with
  | none => some s!"{TARGET_GONE}: `{target}` is no longer in the tree"
  | some actual =>
    if actual ≠ expected then
      some s!"{STALE_TARGET}: `{target}` changed between snapshot and dispatch"
    else none

/-- Hand an op to the host and wrap its result. -/
def dispatchResponse (s : σ) (id : String) (op : Op) : Response × σ :=
  let (result, s) := host.dispatch s op
  (.ofDispatch id result, s)

/-- Turn a request into a response. `polls` is how many times a `wait_until` of this request looks
again before its deadline. -/
def handleRequestCached (polls : Nat) (s : σ) (cache : TreeCache) (req : Request)
    (expectedToken : Option String) (sessionNonce : Option (List UInt8)) :
    Response × σ × TreeCache :=
  match authorizeRequest env req expectedToken sessionNonce with
  | .error resp => (resp, s, cache)
  | .ok () =>
    match req.op with
    | .hello | .wait none => (helloResponse env host s req.id expectedToken, s, cache)
    | .wait (some _) => (waitUntilReady env host s req.id expectedToken, s, cache)
    | .waitUntil _ spec =>
      let (resp, cache) := waitUntilAssert env host s req.id spec polls cache
      (resp, s, cache)
    | .revision => ({ Response.success req.id with rev := host.revision s }, s, cache)
    | .snapshot since format fingerprints =>
      let (resp, cache) := snapshotResponse host s cache req.id since format fingerprints
      (resp, s, cache)
    | .screenshot path mode target maxHeightPx =>
      let spec : ScreenshotSpec := ⟨path, mode, target, maxHeightPx⟩
      match spec.validateRequest with
      | .error error => (.err req.id error, s, cache)
      | .ok () => (.ofDispatch req.id (host.screenshot s spec), s, cache)
    | .assert spec =>
      let (tree, cache) := cache.snapshot host s
      match assertTree env tree spec with
      | .ok () => (.success req.id, s, cache)
      | .error error => (.err req.id error, s, cache)
    | .keybindings =>
      ({ Response.success req.id with result := some (keybindingListJson (host.keybindings s)) },
        s, cache)
    | .events since limit =>
      match host.eventRing s with
      | none => (.err req.id "events unsupported on this host", s, cache)
      | some ring =>
        let poll := ring.since since (limit.getD EVENTS_DEFAULT_LIMIT)
        ({ Response.success req.id with result := some poll.toJson }, s, cache)
    | .keybinding binding chord scope confirm activate =>
      let op := Op.keybinding binding chord scope confirm activate
      match authorizeKeybindingOp op (host.keybindings s) (host.isAppFocused s) with
      | .error error => (.err req.id error, s, cache)
      | .ok _ =>
        let (resp, s) := dispatchResponse host s req.id op
        (resp, s, cache)
    | .shutdown =>
      let (resp, s) := dispatchResponse host s req.id .shutdown
      (resp, s, cache)
    | op =>
      -- the staleness gate, on the tree the cache gives in this same call
      match op.fingerprintGate with
      | none =>
        let (resp, s) := dispatchResponse host s req.id op
        (resp, s, cache)
      | some (target, expected) =>
        let (tree, cache) := cache.snapshot host s
        match fingerprintRefusal tree target expected with
        | some error => (.err req.id error, s, cache)
        | none =>
          let (resp, s) := dispatchResponse host s req.id op
          (resp, s, cache)

/-- `handleRequestCached` with a cache of its own. -/
def handleRequest (polls : Nat) (s : σ) (req : Request) (expectedToken : Option String)
    (sessionNonce : Option (List UInt8)) : Response × σ :=
  let (resp, s, _) := handleRequestCached env host polls s {} req expectedToken sessionNonce
  (resp, s)

end Handle

end GpuiAgent
