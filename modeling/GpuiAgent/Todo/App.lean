import GpuiAgent.Capture.Tiles
import GpuiAgent.Host.Mailbox
import GpuiAgent.Todo.Store

namespace GpuiAgent

open Framework

/-- An event put into the window's own pipeline. -/
inductive InputEvent where
  | mouseMove (x y : F32)
  | mouseDown (x y : F32)
  | mouseUp (x y : F32)
  | keystroke (token : String)
  deriving DecidableEq

/-- What the views and their listeners read and write. -/
structure TodoUi where
  store : TodoStore
  input : String := ""
  inputFocused : Bool := false
  lastKeybindingResult : Option (String × Except String DispatchResult) := none
  layoutBounds : Std.TreeMap String Bounds := ∅
  agentCursor : AgentCursor := .sessionDefault

/-- A keybinding request whose Action has not run yet. -/
structure PendingKeybindingFire where
  posted : MailboxRequest
  binding : String
  confirmedQuit : Bool

/-- A scrolled screenshot that is being captured. -/
structure ScrolledShotJob where
  reply : MailboxRequest
  destClient : String
  target : String

structure TodoApp extends TodoUi where
  pendingKeybinding : Option PendingKeybindingFire := none
  keybindingBacklog : List MailboxRequest := []
  scrolledJob : Option ScrolledShotJob := none
  quit : Bool := false

/-- What the app takes from GPUI and the operating system during one frame. -/
structure Window where
  width : F32
  height : F32
  isWindowActive : Bool
  macos : Bool
  cgwindowId : Except String Unit
  parseKeystroke : String → Except String Unit
  debugChar : Char → String
  /-- what the listeners make of an injected event -/
  listen : InputEvent → TodoUi → TodoUi
  /-- whether a dispatched Action reaches its listener -/
  actionRuns : String → Bool
  capture : String → Except String DispatchResult
  /-- what a frame does to a capture: `none` while it goes on -/
  captureTiles : ScrolledShotJob → Option (Except String DispatchResult)
  polls : Nat

/-- A window off macOS whose listeners ignore every event. -/
def Window.bare : Window where
  width := .finite 800
  height := .finite 600
  isWindowActive := false
  macos := false
  cgwindowId := .error ""
  parseKeystroke := fun _ => .ok ()
  debugChar := fun c => .singleton c
  listen := fun _ ui => ui
  actionRuns := fun _ => false
  capture := fun _ => .error ""
  captureTiles := fun _ => none
  polls := 0

def DEMO_OVERFLOW_ROWS : Nat := 24

def TodoApp.new : TodoApp :=
  { store := (TodoStore.new .desktop).seedOverflowDemo DEMO_OVERFLOW_ROWS }

namespace TodoUi

variable (win : Window) (ui : TodoUi)

def syncDraftFromInput : TodoUi := { ui with store := ui.store.setDraft ui.input }

def syncInputFromStore : TodoUi :=
  if ui.store.draft = ui.input then ui else { ui with input := ui.store.draft }

def setBound (id : String) (bounds : Bounds) : TodoUi :=
  if ui.layoutBounds[id]? = some bounds then ui
  else { ui with
    layoutBounds := ui.layoutBounds.insert id bounds
    store := ui.store.bumpRevision }

def removeBound (id : String) : TodoUi :=
  if ui.layoutBounds.contains id then
    { ui with layoutBounds := ui.layoutBounds.erase id, store := ui.store.bumpRevision }
  else ui

def forgetSidebarBounds : TodoUi :=
  ((ui.removeBound ids.NAV).removeBound ids.NAV_TODOS).removeBound ids.NAV_SETTINGS

def recordWindowBounds : TodoUi :=
  let ui := ui.setBound ids.WINDOW ⟨.finite 0, .finite 0, win.width, win.height⟩
  if ui.store.sidebarOpen then ui else ui.forgetSidebarBounds

/-- What `apply_agent` does before it looks at a request. -/
def prepare : TodoUi := ui.syncDraftFromInput.recordWindowBounds win

def snapshotWithBounds : UiTree := ui.store.tree.applyBoundsMap ui.layoutBounds

def dispatchPointerClick (x y : F32) : List InputEvent :=
  [.mouseMove x y, .mouseDown x y, .mouseUp x y]

def inject (events : List InputEvent) : TodoUi := events.foldl (fun ui e => win.listen e ui) ui

/-- The result of a virtual op, the app after it, and the events it injected. -/
structure Virtual (α : Type) where
  result : Except String α
  ui : TodoUi
  injected : List InputEvent

def virtualClick (target : String) : Virtual DispatchResult :=
  match planClick ui.snapshotWithBounds target with
  | .error error => ⟨.error error, ui, []⟩
  | .ok plan =>
    let ui := { ui with agentCursor := ui.agentCursor.moveTo plan.x plan.y }
    let events := dispatchPointerClick plan.x plan.y
    ⟨.ok (.json (.object [("delivery", .string "virtual"), ("path", .string "gpui.dispatch_event"),
      ("target", .string target), ("x", plan.x.toJson), ("y", plan.y.toJson)])),
      ui.inject win events, events⟩

/-- Parse and dispatch keystrokes one by one, up to the first that does not parse. -/
def dispatchKeystrokes (ui : TodoUi) : List String → Virtual Unit
  | [] => ⟨.ok (), ui, []⟩
  | token :: tokens => match win.parseKeystroke token with
    | .error error => ⟨.error error, ui, []⟩
    | .ok () =>
      let rest := dispatchKeystrokes (win.listen (.keystroke token) ui) tokens
      { rest with injected := .keystroke token :: rest.injected }

/-- The common part of `virtual_type` and `virtual_key`: click, focus, keystrokes. -/
def virtualKeys (target : String) (tokens : Except String (List String)) (result : DispatchResult) :
    Virtual DispatchResult :=
  match ui.virtualClick win target with
  | ⟨.error error, ui, injected⟩ => ⟨.error error, ui, injected⟩
  | ⟨.ok _, ui, injected⟩ =>
    let ui := if target = ids.INPUT then { ui with inputFocused := true } else ui
    match tokens with
    | .error error => ⟨.error error, ui, injected⟩
    | .ok tokens => match ui.dispatchKeystrokes win tokens with
      | ⟨.error error, ui, more⟩ => ⟨.error error, ui, injected ++ more⟩
      | ⟨.ok (), ui, more⟩ => ⟨.ok result, ui.syncDraftFromInput, injected ++ more⟩

def virtualType (target text : String) : Virtual DispatchResult :=
  ui.virtualKeys win target (textKeystrokes win.debugChar text)
    (.json (.object [("delivery", .string "virtual"), ("path", .string "gpui.dispatch_keystroke"),
      ("target", .string target), ("text", .string text)]))

def virtualKey (target key : String) : Virtual DispatchResult :=
  ui.virtualKeys win target ((keystrokeToken key).map fun token => [token])
    (.json (.object [("delivery", .string "virtual"), ("key", .string key),
      ("path", .string "gpui.dispatch_keystroke"), ("target", .string target)]))

def dispatchVirtual : Op → Virtual DispatchResult
  | .click target _ _ => ui.virtualClick win target
  | .type target text _ _ => ui.virtualType win target text
  | .key target key _ _ => ui.virtualKey win target key
  | _ => ⟨.error (virtualUnavailable "only click, type, and key support virtual delivery"), ui, []⟩

/-- Action body, run by the listeners only. -/
def runKeybindingBody (binding : String) : TodoUi :=
  let (result, store) := ui.store.performKeybinding binding
  let ui := { ui with store, lastKeybindingResult := some (binding, result) }
  match result with
  | .ok _ => if binding = ids.KEY_FOCUS_INPUT then { ui with inputFocused := true } else ui
  | .error _ => ui

end TodoUi

def completeKeybindingAction (listener : Option (Except String DispatchResult)) :
    Except String DispatchResult :=
  listener.getD (.error (keybindingUnavailable "Action handler did not run"))

/-- Whether the keymap has an Action for a binding id. -/
def actionForBinding (binding : String) : Bool :=
  [ids.KEY_FOCUS_INPUT, ids.KEY_GO_SETTINGS, ids.KEY_QUIT].contains binding

namespace TodoApp

/-- One turn of the loop in `apply_agent`: the reply if it is not deferred, the app, the injected
events, and whether the frame ends here. -/
structure Turn where
  reply : Option Response
  app : TodoApp
  injected : List InputEvent := []
  stop : Bool := false

variable (env : Env) (win : Window) (app : TodoApp)

def withUi (ui : TodoUi) : TodoApp := { app with toTodoUi := ui }

def startKeybindingFire (posted : MailboxRequest) : Turn :=
  let refused := fun error =>
    { reply := some (.err posted.request.id error), app := app.withUi app.syncInputFromStore : Turn }
  match authorizeKeybindingOp posted.request.op TodoStore.keybindingCatalog win.isWindowActive with
  | .error error => refused error
  | .ok entry =>
    if !actionForBinding entry.id then refused s!"unknown binding `{entry.id}`"
    else
      let pending := ⟨posted, entry.id, opIsConfirmedQuit posted.request.op⟩
      { reply := none
        app := { app with lastKeybindingResult := none, pendingKeybinding := some pending }
        stop := true }

/-- The deferred Action, if it reaches its listener, and then the reply. -/
def finishKeybindingFire : Option Response × TodoApp :=
  match app.pendingKeybinding with
  | none => (none, app)
  | some pending =>
    let ui := if win.actionRuns pending.binding then app.runKeybindingBody pending.binding
      else app.toTodoUi
    let listener := match ui.lastKeybindingResult with
      | some (id, result) => if id = pending.binding then some result else none
      | none => none
    let ui := { ui with lastKeybindingResult := none }
    (some (.ofDispatch pending.posted.request.id (completeKeybindingAction listener)),
      { app with
        toTodoUi := ui.syncInputFromStore
        pendingKeybinding := none
        quit := app.quit || (pending.confirmedQuit && ui.store.shutdown) })

def screenshotThisWindow (path : Option String) : Except String DispatchResult := do
  let path ← requireScreenshotPath path
  let _ ← confineScreenshotPathIn path env.screenshotDir
  if win.macos then
    win.cgwindowId
    win.capture path
  else throw (screenshotUnavailable ("desktop PNG of the app window is macOS-only " ++
    "(`screencapture -l` of this window). This OS has no production GPUI framebuffer export " ++
    "(`Window::render_to_image` is test-support only). Headless stays screenshot_unavailable."))

/-- The checks of a scrolled screenshot: the path and the target of its job. -/
def scrolledJobOf (spec : ScreenshotSpec) : Except String (String × String) := do
  spec.validateRequest
  let path ← requireScreenshotPath spec.path
  let _ ← confineScreenshotPathIn path env.screenshotDir
  let some target := (spec.target.map trim).filter fun s => !s.isEmpty
    | throw "screenshot mode=scrolled requires target"
  if target ≠ ids.LIST_SCROLL then
    throw (scrollUnavailable s!"unknown scroll target `{target}` (want {ids.LIST_SCROLL})")
  if !win.macos then
    throw (screenshotUnavailable ("scrolled screenshot is macOS-only (`screencapture -l` tiles). " ++
      "This OS has no production GPUI framebuffer export (`Window::render_to_image` is " ++
      "test-support only). Headless stays screenshot_unavailable."))
  win.cgwindowId
  return (path, target)

def startScrolledJob (posted : MailboxRequest) (spec : ScreenshotSpec) : Turn :=
  match scrolledJobOf env win spec with
  | .error error => { reply := some (.err posted.request.id error), app, stop := true }
  | .ok (path, target) =>
    { reply := none, app := { app with scrolledJob := some ⟨posted, path, target⟩ }, stop := true }

/-- One frame of the running capture. -/
def advanceScrolledJob : Option Response × TodoApp :=
  match app.scrolledJob with
  | none => (none, app)
  | some job =>
    let outcome := if win.macos then win.captureTiles job
      else some (.error (screenshotUnavailable "scrolled screenshot is macOS-only"))
    match outcome with
    | none => (none, app)
    | some result =>
      (some (.ofDispatch job.reply.request.id result), { app with scrolledJob := none })

/-- One turn of the loop in `apply_agent`. -/
def serveOne (posted : MailboxRequest) : Turn :=
  let id := posted.request.id
  let app := app.withUi (app.prepare win)
  match posted.request.op with
  | .keybinding .. => app.startKeybindingFire win posted
  | .screenshot path mode target maxHeightPx =>
    if mode = .scrolled then app.startScrolledJob env win posted ⟨path, mode, target, maxHeightPx⟩
    else { reply := some (.ofDispatch id (screenshotThisWindow env win path)), app }
  | .assert spec =>
    let reply := match assertTree env app.snapshotWithBounds spec with
      | .ok () => .success id
      | .error error => .err id error
    { reply := some reply, app := app.withUi app.syncInputFromStore }
  | op =>
    -- virtual ops go to the window here, before any of the gates of `handle_request`
    if op.isVirtualInput then
      let out := app.dispatchVirtual win op
      { reply := some (.ofDispatch id out.result)
        app := app.withUi out.ui.syncInputFromStore
        injected := out.injected }
    else
      let (resp, store) := handleRequest env (TodoStore.agentHost env) win.polls app.store
        posted.request none none
      let resp := { resp with tree := resp.tree.map fun t => t.applyBoundsMap app.layoutBounds }
      let app := app.withUi { app.toTodoUi with store }.syncInputFromStore
      { reply := some resp, app := { app with quit := app.quit || op = .shutdown } }

/-- What one frame leaves: the app, the mailbox, the replies it sent and the events it injected. -/
structure Frame where
  app : TodoApp
  mailbox : AgentMailbox
  replies : List (MailboxRequest × Response) := []
  injected : List InputEvent := []

/-- The loop over the backlog. -/
def serveBacklog (mailbox : AgentMailbox) : List MailboxRequest → TodoApp → Frame
  | [], app => { app := { app with keybindingBacklog := [] }, mailbox }
  | posted :: backlog, app =>
    let turn := app.serveOne env win posted
    let rest := if turn.stop then { app := { turn.app with keybindingBacklog := backlog }, mailbox }
      else serveBacklog mailbox backlog turn.app
    { rest with
      replies := (turn.reply.map fun resp => (posted, resp)).toList ++ rest.replies
      injected := turn.injected ++ rest.injected }

def applyAgent (mailbox : AgentMailbox) : Frame :=
  let (taken, mailbox) := mailbox.take
  let app := { app with keybindingBacklog := app.keybindingBacklog ++ taken }
  match app.scrolledJob with
  | some job =>
    let (reply, app) := app.advanceScrolledJob win
    { app, mailbox, replies := (reply.map fun resp => (job.reply, resp)).toList }
  | none =>
    if app.pendingKeybinding.isSome then { app, mailbox }
    else serveBacklog env win mailbox app.keybindingBacklog app

end TodoApp

end GpuiAgent
