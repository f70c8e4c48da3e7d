import GpuiAgent.Server.WaitUntil
import GpuiAgent.Todo.App

namespace GpuiAgent

open Framework

/-- The desktop app and the window it runs in. -/
structure Desktop where
  app : TodoApp
  win : Window

/-- What happens to the app between two requests: its own listeners run, or the window changes. -/
inductive DesktopInput where
  | ui (listener : TodoUi → TodoUi)
  | window (win : Window)

namespace Desktop

/-- The app as the UI thread behind a mailbox. Its backlog and what it has pending are those of the
server's state. -/
def uiThread (env : Env) : UiThread Desktop DesktopInput where
  serve := fun s posted =>
    let turn := s.app.serveOne env s.win posted
    (turn.reply, { s with app := turn.app })
  finish := fun s =>
    let (resp, app) := match s.app.scrolledJob with
      | some _ => s.app.advanceScrolledJob s.win
      | none => s.app.finishKeybindingFire s.win
    (resp, { s with app })
  react := fun s input => match input with
    | .ui listener => { s with app := s.app.withUi (listener s.app.toTodoUi) }
    | .window win => { s with win }

theorem serve_revision (env : Env) (s : Desktop) (posted : MailboxRequest)
    (current : posted.request.v = PROTOCOL_VERSION) (op : posted.request.op = .revision) :
    ((uiThread env).serve s posted).1 = some { Response.success posted.request.id with
      rev := some (s.app.prepare s.win).store.rev } := by
  obtain ⟨ticket, v, id, token, auth, o⟩ := posted
  subst op
  have handled (store : TodoStore) : handleRequest env (TodoStore.agentHost env) s.win.polls store
      ⟨v, id, token, auth, .revision⟩ none none =
        ({ Response.success id with rev := some store.rev }, store) := by
    unfold handleRequest handleRequestCached
    rw [authorizeRequest_untokened current]
    rfl
  have served : ((uiThread env).serve s ⟨ticket, v, id, token, auth, .revision⟩).1 =
      let resp := (handleRequest env (TodoStore.agentHost env) s.win.polls
        (s.app.prepare s.win).store ⟨v, id, token, auth, .revision⟩ none none).1
      some { resp with
        tree := resp.tree.map fun t => t.applyBoundsMap (s.app.prepare s.win).layoutBounds } := rfl
  rw [served, handled]
  rfl

theorem serve_assert (env : Env) (s : Desktop) (posted : MailboxRequest) (spec : AssertSpec)
    (op : posted.request.op = .assert spec) :
    ((uiThread env).serve s posted).1 = some (assertReply posted.request.id
      (assertTree env (s.app.prepare s.win).snapshotWithBounds spec)) := by
  obtain ⟨ticket, v, id, token, auth, o⟩ := posted
  subst op
  cases outcome : assertTree env (s.app.prepare s.win).snapshotWithBounds spec with
  | ok _ =>
    unfold uiThread TodoApp.serveOne
    simp only [TodoApp.withUi, assertReply]
    rw [outcome]
  | error error =>
    unfold uiThread TodoApp.serveOne
    simp only [TodoApp.withUi, assertReply]
    rw [outcome]

/-- The app answers probes and asserts at once, after it has synced its draft and bounds. -/
def observedUi (env : Env) : ObservedUi Desktop DesktopInput where
  toUiThread := uiThread env
  revision := fun s => some (s.app.prepare s.win).store.rev
  evaluate := fun s spec => assertTree env (s.app.prepare s.win).snapshotWithBounds spec
  serve_revision := serve_revision env
  serve_assert := fun s posted spec _ op => serve_assert env s posted spec op

end Desktop

end GpuiAgent
