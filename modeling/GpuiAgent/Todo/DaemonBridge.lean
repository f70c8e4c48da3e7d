import GpuiAgent.Client.Wire
import GpuiAgent.Framework.Channel
import GpuiAgent.Server.Security
import GpuiAgent.Todo.View

namespace GpuiAgent

open Framework

namespace AgentClient

/-- `roundtrip_wire`: one attempt of a call. -/
def roundtripWire (c : AgentClient) (id : Nat) (op : Op) (a : Attempt) :
    Except String Response × AgentClient × List LineWrite :=
  match if c.session then a.setTimeout else a.connect with
  | .error error => (.error error, { c with session := false }, [])
  | .ok () => match exchangeWire a id op with
    | (.ok resp, log) => (.ok resp, { c with session := true }, log)
    | (.error error, log) => (.error error, { c with session := false }, log)

/-- The attempts of a call are made one by one. -/
theorem roundtripLoop_eq (c : AgentClient) (id : Nat) (op : Op) (lastErr : String) (a : Attempt)
    (attempts : List Attempt) : c.roundtripLoop id op lastErr (a :: attempts) =
      match c.roundtripWire id op a with
      | (.ok resp, c, log) => ⟨.ok resp, c, log⟩
      | (.error error, c, log) =>
        let rest := c.roundtripLoop id op error attempts
        { rest with log := log ++ rest.log } := by
  rw [roundtripLoop, roundtripWire]
  cases if c.session then a.setTimeout else a.connect with
  | error error => rfl
  | ok u =>
    obtain ⟨result, log⟩ := exchangeWire a id op
    cases result with
    | error error => rfl
    | ok resp => rfl

end AgentClient

/-- `expect_ok`, once there is a reply. -/
def Response.expectOk (resp : Response) : Except String Response :=
  if resp.ok then .ok resp else .error (resp.error.getD "request failed")

inductive Cmd where
  | click (target : String)
  | setValue (target value : String)
  deriving DecidableEq

def Cmd.op : Cmd → Op
  | .click target => .click target .semantic none
  | .setValue target value => .setValue target value none

/-- `TodoView::default`. -/
def TodoView.default : TodoView := ⟨[], "", .todos, false, true⟩

/-- What the window without a host of its own keeps besides its bridge. -/
structure DaemonApp where
  view : TodoView := .default
  daemonError : Option String := none
  input : String := ""

/-- What a user does in the window, past the widgets. -/
inductive UserAction where
  | addFromInput
  | toggleSidebar
  | goPage (page : Page)
  | toggleItem (itemId : UInt64)
  | deleteItem (itemId : UInt64)
  | toggleConfirmDelete
  deriving DecidableEq

namespace UserAction

/-- What the action sends to the daemon, with this text in the input. -/
def commands (input : String) : UserAction → List Cmd
  | .addFromInput =>
    if (trim input).isEmpty then [] else [.setValue ids.INPUT input, .click ids.ADD]
  | .toggleSidebar => [.click ids.NAV_TOGGLE]
  | .goPage page => [.click (match page with
    | .todos => ids.NAV_TODOS
    | .settings => ids.NAV_SETTINGS)]
  | .toggleItem itemId => [.click (ids.toggle itemId.toNat)]
  | .deleteItem itemId => [.click (ids.delete itemId.toNat)]
  | .toggleConfirmDelete => [.click ids.SETTINGS_CONFIRM_DELETE]

/-- What the same action does in the build with a host of its own. -/
def embedded (s : TodoStore) (input : String) : UserAction → TodoStore
  | .addFromInput => (s.add input).2
  | .toggleSidebar => s.toggleSidebar
  | .goPage page => s.go page
  | .toggleItem itemId => (s.toggle itemId.toNat).2
  | .deleteItem itemId => (s.delete itemId.toNat).2
  | .toggleConfirmDelete => s.toggleConfirmDelete

/-- An added title leaves the input. -/
def inputAfter (input : String) : UserAction → String
  | .addFromInput => if (trim input).isEmpty then input else ""
  | _ => input

end UserAction

/-- What the worker calls the daemon for. -/
inductive Errand where
  | command (cmd : Cmd)
  | look
  deriving DecidableEq

def Errand.op : Errand → Op
  | .command cmd => cmd.op
  | .look => .snapshot none none none

/-- Where the worker's loop stands; a call stands between two of its attempts. -/
inductive WorkerPhase where
  | polling
  | calling (errand : Errand) (id : Nat) (lastErr : String)
  | exited
  deriving DecidableEq

/-- What becomes of a request line that went out, unless it is lost before the daemon has it. -/
inductive LineFate where
  | served
  | refused (error : String)
  | stray

/-- What the bridge has done: a command whose call has ended, or the outcome of a snapshot. -/
inductive BridgeNote where
  | called (cmd : Cmd) (result : Except String Response)
  | looked (view : Except String TodoView)

/-- The window, the worker of its bridge and the daemon. `stray` are the lines that the daemon may
still take after their call has given them up. The rest is history: what the user did with which
text in the input, the commands given, what the worker has done, and what it sent and the window
showed. -/
structure BridgeSystem where
  app : DaemonApp := {}
  cmds : Channel Cmd := {}
  views : Channel (Except String TodoView) := {}
  client : Option AgentClient := none
  phase : WorkerPhase := .polling
  daemon : TodoStore
  stray : List Op := []
  acted : List (String × UserAction) := []
  given : List Cmd := []
  notes : List BridgeNote := []
  sent : List (Except String TodoView) := []
  shown : List (Except String TodoView) := []

/-- A step of the window, of the worker or of the daemon. -/
inductive BridgeEvent where
  | typed (text : String)
  | act (action : UserAction)
  | frame
  | close
  | recv
  | attempt (a : Attempt) (fate : LineFate)
  | expire
  | late (i : Nat)
  | other (op : Op)

/-- `connect_client` reads its settings anew for every client. -/
def connectClient (proc : ProcessEnv) : Except String AgentClient := do
  let addr ← match proc.var "GPUI_AGENT_ADDR" with
    | some raw => (proc.parseAddr raw).mapError fun err => "invalid GPUI_AGENT_ADDR: " ++ err
    | none => .ok defaultAddr
  let _ ← (authorizeClient addr (tokenVar proc)
    (truthyEnv proc "GPUI_AGENT_ALLOW_REMOTE")).mapError (SecurityError.message proc)
  return ⟨proc.showAddr addr, 1, false⟩

namespace BridgeSystem

variable (env : Env) (connect : Except String AgentClient) (s : BridgeSystem)

/-- The worker drops its ends of the channels. -/
def exit : BridgeSystem :=
  { s with phase := .exited, cmds := s.cmds.dropReceiver, views := s.views.dropSender }

/-- `views.send`: the worker ends when nobody is left to show them. -/
def report (view : Except String TodoView) (next : BridgeSystem → BridgeSystem) : BridgeSystem :=
  match s.views.send view with
  | none => s.exit
  | some views => next { s with views, sent := s.sent ++ [view] }

/-- The end of the call of a round's snapshot. -/
def endLook (result : Except String Response) : BridgeSystem :=
  match result with
  | .ok resp => match resp.tree with
    | some tree =>
      let view := TodoView.fromTree tree
      report { s with notes := s.notes ++ [.looked (.ok view)] } (.ok view) fun s =>
        { s with phase := .polling }
    | none => { s with phase := .polling }
  | .error err =>
    report { s with client := none, notes := s.notes ++ [.looked (.error err)] } (.error err)
      fun s => { s with phase := .polling }

/-- `ensure_client`, and the start of its next call. -/
def startCall (errand : Errand) : Except String BridgeSystem :=
  match s.client.elim connect .ok with
  | .error err => .error err
  | .ok c => .ok { s with
      client := some { c with nextId := c.nextId + 1 }
      phase := .calling errand c.nextId "" }

def beginLook : BridgeSystem :=
  match s.startCall connect .look with
  | .error err => s.endLook (.error err)
  | .ok s => s

/-- The end of the call of a command. The round goes on with a snapshot. -/
def endCommand (cmd : Cmd) (result : Except String Response) : BridgeSystem :=
  let s := { s with notes := s.notes ++ [BridgeNote.called cmd result] }
  match result with
  | .ok _ => s.beginLook connect
  | .error err => report { s with client := none } (.error err) fun s => s.beginLook connect

def beginCommand (cmd : Cmd) : BridgeSystem :=
  match s.startCall connect (.command cmd) with
  | .error err => s.endCommand connect cmd (.error err)
  | .ok s => s

def endCall (errand : Errand) (result : Except String Response) : BridgeSystem :=
  match errand with
  | .command cmd => s.endCommand connect cmd result
  | .look => s.endLook result

/-- The top of the worker's loop. -/
def recv : BridgeSystem :=
  match s.phase with
  | .polling => match s.cmds.tryRecv with
    | (.value cmd, cmds) => beginCommand connect { s with cmds } cmd
    | (.empty, _) => s.beginLook connect
    | (.disconnected, _) => s.exit
  | _ => s

/-- The daemon takes a request. Its connections answer from caches that no client can tell. -/
def answer (id : Nat) (op : Op) : Response × TodoStore :=
  handleRequest env (TodoStore.agentHost env) 0 s.daemon
    (.new (fmtU64 (UInt64.ofNat id)) op) none none

/-- The reply that reaches the client, if one does. -/
def reply (id : Nat) (op : Op) : LineFate → Option Response
  | .served => some (s.answer env id op).1
  | .refused error => some (.err (fmtU64 (UInt64.ofNat id)) error)
  | .stray => none

/-- A connection on which nothing but this reply can be read. -/
def hearing (a : Attempt) (reply : Option Response) : Attempt :=
  { a with read := fun i => match reply, a.read i with
    | some resp, .line _ => .line resp
    | none, .line _ => .closed
    | _, outcome => outcome }

/-- The daemon after a line of the client. A line cut short may lack its newline only. -/
def deliver (id : Nat) (op : Op) (fate : LineFate) (log : List LineWrite) : BridgeSystem :=
  match log, fate with
  | [], _ => s
  | w :: _, fate =>
    if !w.complete then { s with stray := s.stray ++ [op] }
    else match fate with
      | .served => { s with daemon := (s.answer env id op).2 }
      | .refused _ => s
      | .stray => { s with stray := s.stray ++ [op] }

/-- One attempt of the call that is being made. -/
def attempt (a : Attempt) (fate : LineFate) : BridgeSystem :=
  match s.phase, s.client with
  | .calling errand id _, some c =>
    let (result, c, log) :=
      c.roundtripWire id errand.op (hearing a (s.reply env id errand.op fate))
    let s := { s.deliver env id errand.op fate log with client := some c }
    match result with
    | .ok resp => s.endCall connect errand resp.expectOk
    | .error err => { s with phase := .calling errand id err }
  | _, _ => s

/-- The deadline of the call has passed. -/
def expire : BridgeSystem :=
  match s.phase, s.client with
  | .calling errand _ lastErr, some c =>
    s.endCall connect errand (.error (AgentClient.connectFailed c.addr lastErr))
  | _, _ => s

/-- The daemon takes a line that was given up. -/
def late (i : Nat) : BridgeSystem :=
  match s.stray[i]? with
  | some op => { s with daemon := (s.answer env 0 op).2, stray := s.stray.eraseIdx i }
  | none => s

/-- `poll`. -/
def poll : Option (Except String TodoView) × Channel (Except String TodoView) :=
  match s.views.drain with
  | (.value last, views) => (some last, views)
  | (.empty, views) => (none, views)
  | (.disconnected, views) => (some (.error "daemon worker exited"), views)

/-- `apply_daemon`: the draft of the daemon is never put into the input, but an empty one clears
it. -/
def applyDaemon : BridgeSystem :=
  match s.poll with
  | (none, views) => { s with views }
  | (some (.ok view), views) =>
    let input := if view.draft ≠ s.app.input ∧ s.app.view.page = .todos ∧ view.draft.isEmpty then ""
      else s.app.input
    { s with views, app := ⟨view, none, input⟩, shown := s.shown ++ [.ok view] }
  | (some (.error err), views) =>
    { s with
      views
      app := { s.app with daemonError := some err }
      shown := s.shown ++ [.error err] }

def act (action : UserAction) : BridgeSystem :=
  let commands := action.commands s.app.input
  { s with
    cmds := s.cmds.sendAll commands
    app := { s.app with input := action.inputAfter s.app.input }
    acted := s.acted ++ [(s.app.input, action)]
    given := s.given ++ commands }

def close : BridgeSystem :=
  { s with cmds := s.cmds.dropSender, views := s.views.dropReceiver }

/-- The window is there as long as its end of the commands is. -/
def step (s : BridgeSystem) : BridgeEvent → BridgeSystem
  | .typed text => if s.cmds.sender then { s with app := { s.app with input := text } } else s
  | .act action => if s.cmds.sender then s.act action else s
  | .frame => if s.cmds.sender then s.applyDaemon else s
  | .close => s.close
  | .recv => s.recv connect
  | .attempt a fate => s.attempt env connect a fate
  | .expire => s.expire connect
  | .late i => s.late env i
  | .other op => { s with daemon := (s.answer env 0 op).2 }

/-- A run of a window that is opened on this daemon. -/
def run (proc : ProcessEnv) (daemon : TodoStore) (events : List BridgeEvent) : BridgeSystem :=
  events.foldl (step env (connectClient proc)) { daemon }

end BridgeSystem

end GpuiAgent
