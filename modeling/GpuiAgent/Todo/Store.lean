import GpuiAgent.Framework.Word
import GpuiAgent.Host.Dispatch
import GpuiAgent.Host.VirtualInput

namespace GpuiAgent

open Framework Framework.RoseTree

namespace ids
def INPUT := "todo-input"
def ADD := "todo-add"
def LIST := "todo-list"
def LIST_SCROLL := "todo-list-scroll"
def EMPTY := "todo-empty"
def STATUS := "todo-status"
def WINDOW := "todo-window"
def NAV := "todo-nav"
def NAV_TODOS := "nav-todos"
def NAV_SETTINGS := "nav-settings"
def NAV_TOGGLE := "nav-toggle-sidebar"
def PAGE_TODOS := "page-todos"
def PAGE_SETTINGS := "page-settings"
def SETTINGS_CONFIRM_DELETE := "settings-confirm-delete"
def KEY_FOCUS_INPUT := "todo.focus_input"
def KEY_GO_SETTINGS := "todo.go_settings"
def KEY_QUIT := "app.quit"
def KEY_FOCUS_INPUT_CHORD := "cmd-n"
def KEY_GO_SETTINGS_CHORD := "cmd-shift-s"
def KEY_QUIT_CHORD := "cmd-q"
def item (id : Nat) : String := s!"todo-item-{id}"
def toggle (id : Nat) : String := s!"todo-toggle-{id}"
def delete (id : Nat) : String := s!"todo-delete-{id}"
end ids

inductive Page where
  | todos | settings
  deriving DecidableEq

structure Todo where
  id : Nat
  title : String
  done : Bool
  deriving DecidableEq

def Todo.toJson (t : Todo) : Json :=
  .object [("done", .bool t.done), ("id", .nat t.id), ("title", .string t.title)]

def todoResult (t : Todo) : DispatchResult := .json t.toJson

def parseNumberedId (pre target : String) : Option Nat := (stripPrefix target pre).bind parseU64

structure TodoStore where
  nextId : Nat
  items : List Todo
  draft : String
  page : Page
  confirmDelete : Bool
  sidebarOpen : Bool
  platform : PlatformKind
  shutdown : Bool
  appFocused : Bool
  rev : Nat
  events : EventRing

namespace TodoStore

def new (platform : PlatformKind) : TodoStore where
  nextId := 1
  items := []
  draft := ""
  page := .todos
  confirmDelete := false
  sidebarOpen := true
  platform := platform
  shutdown := false
  appFocused := false
  rev := 0
  events := .new EVENT_RING_CAPACITY

def bumpRevision (s : TodoStore) : TodoStore := { s with rev := wrappingAdd s.rev 1 }

def go (s : TodoStore) (page : Page) : TodoStore := { s with page }.bumpRevision

def toggleConfirmDelete (s : TodoStore) : TodoStore :=
  { s with confirmDelete := !s.confirmDelete }.bumpRevision

def toggleSidebar (s : TodoStore) : TodoStore :=
  { s with sidebarOpen := !s.sidebarOpen }.bumpRevision

def setDraft (s : TodoStore) (draft : String) : TodoStore := { s with draft }.bumpRevision

def setAppFocused (s : TodoStore) (focused : Bool) : TodoStore := { s with appFocused := focused }

def keybindingCatalog : List KeybindingInfo :=
  [⟨ids.KEY_FOCUS_INPUT, ids.KEY_FOCUS_INPUT_CHORD, .focused, false⟩,
    ⟨ids.KEY_GO_SETTINGS, ids.KEY_GO_SETTINGS_CHORD, .global, false⟩,
    ⟨ids.KEY_QUIT, ids.KEY_QUIT_CHORD, .global, true⟩]

/-- The Action bodies. -/
def performKeybinding (s : TodoStore) (binding : String) :
    Except String DispatchResult × TodoStore :=
  if binding = ids.KEY_FOCUS_INPUT then
    (.ok (.json (.object [("id", .string ids.KEY_FOCUS_INPUT), ("path", .string "gpui.action"),
      ("scope", .string "focused")])), { s with page := .todos }.bumpRevision)
  else if binding = ids.KEY_GO_SETTINGS then
    (.ok (.json (.object [("id", .string ids.KEY_GO_SETTINGS), ("path", .string "gpui.action"),
      ("scope", .string "global")])), { s with page := .settings }.bumpRevision)
  else if binding = ids.KEY_QUIT then
    (.ok (.json (.object [("dangerous", .bool true), ("id", .string ids.KEY_QUIT),
      ("path", .string "gpui.action"), ("scope", .string "global")])),
      { s with shutdown := true }.bumpRevision)
  else (.error s!"unknown binding `{binding}`", s)

/-- Headless only; `activate` takes effect before the Action runs. -/
def fireKeybinding (s : TodoStore) (op : Op) : Except String DispatchResult × TodoStore :=
  if s.platform = .desktop then
    (.error (keybindingUnavailable ("desktop keybinding fire must run on the GPUI UI thread " ++
      "(Action / keymap dispatch). Mailbox intercept missing?")), s)
  else match op with
    | .keybinding binding _ _ _ activate =>
      let s := if activate then { s with appFocused := true } else s
      s.performKeybinding binding
    | _ => (.error "not a keybinding fire op", s)

def add (s : TodoStore) (title : String) : Except String Todo × TodoStore :=
  let title := trim title
  if title.isEmpty then (.error "cannot add an empty todo", s)
  else
    let todo : Todo := ⟨s.nextId, title, false⟩
    (.ok todo, { s with
      nextId := wrappingAdd s.nextId 1
      items := s.items ++ [todo]
      draft := "" }.bumpRevision)

def addFromDraft (s : TodoStore) : Except String Todo × TodoStore := s.add s.draft

/-- Flip `done` of the first item with this id. -/
def toggle (s : TodoStore) (id : Nat) : Except String Todo × TodoStore :=
  match s.items.find? fun item => item.id = id with
  | none => (.error s!"todo {id} not found", s)
  | some item =>
    let item := { item with done := !item.done }
    (.ok item, { s with items := s.items.replaceF fun i => if i.id = id then some item else none
      }.bumpRevision)

def delete (s : TodoStore) (id : Nat) : Except String Todo × TodoStore :=
  match s.items.find? fun item => item.id = id with
  | none => (.error s!"todo {id} not found", s)
  | some item =>
    (.ok item, { s with items := s.items.eraseP fun item => item.id = id }.bumpRevision)

def seedOverflowDemo (s : TodoStore) (count : Nat) : TodoStore :=
  (List.range count).foldl (fun s i => (s.add s!"Scroll demo {i + 1}").2) s

section Tree

variable (s : TodoStore)

def statusName : String :=
  if s.items.isEmpty then "No todos"
  else
    let done := (s.items.filter Todo.done).length
    s!"{s.items.length} todos, {done} done"

def itemNode (item : Todo) : UiNode :=
  ((UiNode.new (ids.item item.id) Role.LIST_ITEM item.title).withChecked item.done
    |>.withChild ((UiNode.new (ids.toggle item.id) Role.CHECKBOX item.title).withChecked item.done)
    |>.withChild (UiNode.new (ids.delete item.id) Role.BUTTON s!"Delete {item.title}"))

def listChildren : List UiNode :=
  if s.items.isEmpty then [UiNode.new ids.EMPTY Role.NOTE "No todos yet. Add one above."]
  else s.items.map itemNode

def todosPage : UiNode :=
  (UiNode.new ids.PAGE_TODOS Role.PAGE "Todos")
    |>.withChild ((UiNode.new ids.INPUT Role.TEXTBOX "What needs doing?").withValue s.draft)
    |>.withChild (UiNode.new ids.ADD Role.BUTTON "Add")
    |>.withChild ((UiNode.new ids.LIST_SCROLL Role.SCROLL "Todo list").withChild
      ((UiNode.new ids.LIST Role.LIST "Todos").withChildren s.listChildren))
    |>.withChild (UiNode.new ids.STATUS Role.STATUS s.statusName)

def settingsPage : UiNode :=
  (UiNode.new ids.PAGE_SETTINGS Role.PAGE "Settings").withChild
    ((UiNode.new ids.SETTINGS_CONFIRM_DELETE Role.CHECKBOX "Confirm before delete").withChecked
      s.confirmDelete)

def navNode : UiNode :=
  let nav := (UiNode.new ids.NAV Role.NAVIGATION "Todo")
    |>.withChild (UiNode.new ids.NAV_TODOS Role.BUTTON "Todos")
    |>.withChild (UiNode.new ids.NAV_SETTINGS Role.BUTTON "Settings")
  if s.sidebarOpen then nav else nav.withVisibleDeep false

def pageNode : UiNode := match s.page with
  | .todos => s.todosPage
  | .settings => s.settingsPage

def tree : UiTree where
  app := "todo"
  platform := s.platform
  ready := true
  nodes := [(UiNode.new ids.WINDOW Role.WINDOW "Agent Todo")
    |>.withChild (UiNode.new ids.NAV_TOGGLE Role.BUTTON
      (if s.sidebarOpen then "Hide sidebar" else "Show sidebar"))
    |>.withChild s.navNode
    |>.withChild s.pageNode]
  rev := some s.rev

end Tree

/-- Wrap the todo of a successful call. -/
def withTodo (r : Except String Todo × TodoStore) : Except String DispatchResult × TodoStore :=
  (r.1.map todoResult, r.2)

@[simp] theorem withTodo_snd (r : Except String Todo × TodoStore) : (withTodo r).2 = r.2 := rfl

def sidebarResult (s : TodoStore) : DispatchResult :=
  .json (.object [("sidebar_open", .bool s.sidebarOpen)])

def click (s : TodoStore) (target : String) : Except String DispatchResult × TodoStore :=
  if target = ids.NAV_TOGGLE then (.ok s.toggleSidebar.sidebarResult, s.toggleSidebar)
  else if target = ids.NAV_TODOS then (.ok .empty, s.go .todos)
  else if target = ids.NAV_SETTINGS then (.ok .empty, s.go .settings)
  else if target = ids.SETTINGS_CONFIRM_DELETE then
    let s := s.toggleConfirmDelete
    (.ok (.json (.object [("confirm_delete", .bool s.confirmDelete)])), s)
  else if target = ids.ADD then withTodo s.addFromDraft
  else match parseNumberedId "todo-toggle-" target with
    | some id => withTodo (s.toggle id)
    | none => match parseNumberedId "todo-delete-" target with
      | some id => withTodo (s.delete id)
      | none => match parseNumberedId "todo-item-" target with
        | some id => withTodo (s.toggle id)
        | none => (.error s!"cannot click `{target}`", s)

def draftResult (s : TodoStore) : DispatchResult := .json (.object [("value", .string s.draft)])

def typeInto (s : TodoStore) (target text : String) : Except String DispatchResult × TodoStore :=
  if target ≠ ids.INPUT then (.error s!"`{target}` is not editable", s)
  else
    let s := { s with draft := s.draft ++ text }.bumpRevision
    (.ok s.draftResult, s)

def setValue (s : TodoStore) (target value : String) : Except String DispatchResult × TodoStore :=
  if target ≠ ids.INPUT then (.error s!"`{target}` is not editable", s)
  else
    let s := { s with draft := value }.bumpRevision
    (.ok s.draftResult, s)

def key (s : TodoStore) (target key : String) : Except String DispatchResult × TodoStore :=
  if (target = ids.INPUT ∨ target = ids.ADD) ∧ key = "Enter" then withTodo s.addFromDraft
  else if target = ids.INPUT ∧ key = "Backspace" then
    (.ok .empty, { s with draft := .ofList s.draft.toList.dropLast }.bumpRevision)
  else (.error s!"unhandled key `{key}` on `{target}`", s)

def argId (args : Json) : Except String Nat :=
  match (args.get "id").bind Json.asU64 with
  | some id => .ok id
  | none => .error "expected args.id"

/-- `nav.go` sets the page itself, without `go`. -/
def invoke (s : TodoStore) (name : String) (args : Json) :
    Except String DispatchResult × TodoStore :=
  match name with
  | "todo.add" => match (args.get "title").bind Json.asStr with
    | some title => withTodo (s.add title)
    | none => (.error "todo.add requires args.title", s)
  | "todo.toggle" => match argId args with
    | .ok id => withTodo (s.toggle id)
    | .error error => (.error error, s)
  | "todo.delete" => match argId args with
    | .ok id => withTodo (s.delete id)
    | .error error => (.error error, s)
  | "todo.list" => (.ok (.json (.array (s.items.map Todo.toJson))), s)
  | "nav.go" => match (args.get "page").bind Json.asStr with
    | some "todos" => (.ok .empty, { s with page := .todos })
    | some "settings" => (.ok .empty, { s with page := .settings })
    | some other => (.error s!"unknown page `{other}`", s)
    | none => (.error "nav.go requires args.page", s)
  | "todo.toggle_sidebar" => (.ok s.toggleSidebar.sidebarResult, s.toggleSidebar)
  | other => (.error s!"unknown invoke `{other}`", s)

def hello (env : Env) (s : TodoStore) : HelloInfo where
  protocol := PROTOCOL_VERSION
  app := "todo"
  platform := s.platform
  os := env.os
  ready := true
  deliveries := if s.platform = .desktop then [.semantic, .virtual] else [.semantic]
  auth := .none
  bundleId := none
  executable := none
  features := []

def screenshot (env : Env) (s : TodoStore) (spec : ScreenshotSpec) :
    Except String DispatchResult := do
  let path ← requireScreenshotPath spec.path
  let _ ← confineScreenshotPathIn path env.screenshotDir
  throw (screenshotUnavailable (match s.platform with
    | .headless => "headless host has no pixel surface (viewport and scrolled)"
    | .desktop => "desktop screenshot must run on the GPUI UI thread with a Window " ++
        "(mailbox intercept). This store has no pixel surface."
    | _ => "this host has no pixel surface"))

def dispatch (env : Env) (s : TodoStore) (op : Op) : Except String DispatchResult × TodoStore :=
  if op.isVirtualInput then
    (.error (virtualUnavailable ("this host has no GPUI pointer/key pipeline. " ++
      "Virtual delivery synthesizes in-window events on the desktop GPUI host " ++
      "after a painted frame. Headless and store-only hosts implement semantic " ++
      "dispatch only — use delivery=semantic, or run apps/todo with GPUI_AGENT=1.")), s)
  else match op with
    | .click target _ _ => s.click target
    | .type target text _ _ => s.typeInto target text
    | .setValue target value _ => s.setValue target value
    | .key target key _ _ => s.key target key
    | .keybinding .. => s.fireKeybinding op
    | .keybindings => (.ok (.json (keybindingListJson keybindingCatalog)), s)
    | .invoke name args =>
      let (result, s) := s.invoke name args
      match result with
      | .ok _ => (result, { s with events := s.events.push .info "todo" s!"invoke {name}" })
      | .error _ => (result, s)
    | .screenshot path mode target maxHeightPx =>
      (s.screenshot env ⟨path, mode, target, maxHeightPx⟩, s)
    | .shutdown => (.ok .empty, { s with shutdown := true })
    | .hello | .snapshot .. | .revision | .events .. | .assert _ | .wait _ | .waitUntil .. =>
      (.ok .empty, s)

/-- `impl AgentHost for TodoStore`. -/
def agentHost (env : Env) : AgentHost TodoStore where
  hello := hello env
  snapshot := tree
  dispatch := dispatch env
  screenshot := screenshot env
  keybindings := fun _ => keybindingCatalog
  isAppFocused := appFocused
  revision := fun s => some s.rev
  eventRing := fun s => some s.events

end TodoStore

end GpuiAgent
