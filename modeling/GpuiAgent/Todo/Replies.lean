import GpuiAgent.Server.Correlation
import GpuiAgent.Todo.Desktop

namespace GpuiAgent

open Framework

/-- The ids of the requests the app still has to reply to: a scrolled screenshot's, and that of a
keybinding whose Action has not run. -/
def TodoApp.owed (app : TodoApp) : Option String × Option String :=
  (app.scrolledJob.map fun job => job.reply.request.id,
    app.pendingKeybinding.map fun pending => pending.posted.request.id)

namespace TodoApp

variable {env : Env} {win : Window} {app : TodoApp} {posted : MailboxRequest}

@[simp] theorem owed_withUi (ui : TodoUi) : (app.withUi ui).owed = app.owed := rfl

/-- What starting a request leaves the app with: a reply under its id and the old debts, or no reply
and a debt of its own. -/
structure Settles (before : Option String × Option String) (id : String) (turn : Turn) : Prop where
  replied : ∀ resp, turn.reply = some resp → resp.id = id ∧ turn.app.owed = before
  deferred : turn.reply = none → before = (none, none) →
    turn.app.owed = (some id, none) ∨ turn.app.owed = (none, some id)

theorem startKeybindingFire_settles :
    Settles app.owed posted.request.id (app.startKeybindingFire win posted) := by
  unfold startKeybindingFire
  dsimp only
  split
  next =>
    refine ⟨?_, fun h => by cases h⟩
    rintro resp ⟨⟩
    exact ⟨rfl, rfl⟩
  next entry _ =>
    split_ifs
    · refine ⟨?_, fun h => by cases h⟩
      rintro resp ⟨⟩
      exact ⟨rfl, rfl⟩
    · refine ⟨?_, fun _ idle => ?_⟩
      · rintro resp ⟨⟩
      · have hjob : app.scrolledJob.map (fun job => job.reply.request.id) = none :=
          congrArg Prod.fst idle
        right
        simp [owed, hjob]

theorem startScrolledJob_settles (spec : ScreenshotSpec) :
    Settles app.owed posted.request.id (app.startScrolledJob env win posted spec) := by
  unfold startScrolledJob
  split
  next =>
    refine ⟨?_, fun h => by cases h⟩
    rintro resp ⟨⟩
    exact ⟨rfl, rfl⟩
  next path target _ =>
    refine ⟨?_, fun _ idle => ?_⟩
    · rintro resp ⟨⟩
    · have hkey : app.pendingKeybinding.map (fun p => p.posted.request.id) = none :=
        congrArg Prod.snd idle
      left
      simp [owed, hkey]

theorem serveOne_settles :
    Settles app.owed posted.request.id (app.serveOne env win posted) := by
  have answered {turn : Turn} {resp : Response} (reply : turn.reply = some resp)
      (hid : resp.id = posted.request.id) (kept : turn.app.owed = app.owed) :
      Settles app.owed posted.request.id turn := by
    refine ⟨fun r hr => ?_, fun h => ?_⟩
    · obtain rfl := Option.some.inj (reply.symm.trans hr)
      exact ⟨hid, kept⟩
    · cases reply.symm.trans h
  have handled (posted : MailboxRequest) (store : TodoStore) :
      (handleRequest env (TodoStore.agentHost env) win.polls store posted.request none none).1.id =
        posted.request.id :=
    handleRequestCached_id env (TodoStore.agentHost env) win.polls store {} posted.request none none
  unfold serveOne
  dsimp only
  split
  · exact @startKeybindingFire_settles win (app.withUi (app.prepare win)) posted
  next path mode target maxHeightPx _ =>
    split_ifs
    · exact @startScrolledJob_settles env win (app.withUi (app.prepare win)) posted
        ⟨path, mode, target, maxHeightPx⟩
    · exact answered rfl (Response.ofDispatch_id _ _) rfl
  next spec _ =>
    refine answered rfl ?_ rfl
    cases assertTree env (app.withUi (app.prepare win)).snapshotWithBounds spec <;> rfl
  next op _ _ _ =>
    split_ifs
    · exact answered rfl (Response.ofDispatch_id _ _) rfl
    · exact answered rfl (handled posted _) rfl

end TodoApp

namespace Desktop

/-- A frame pays the one debt, or leaves it as it is. -/
theorem finish_owed {env : Env} {s : Desktop} {id : String}
    (h : s.app.owed = (some id, none) ∨ s.app.owed = (none, some id)) :
    (∃ resp, ((uiThread env).finish s).1 = some resp ∧ resp.id = id ∧
      ((uiThread env).finish s).2.app.owed = (none, none)) ∨
    ((uiThread env).finish s).1 = none ∧ ((uiThread env).finish s).2.app.owed = s.app.owed := by
  obtain ⟨app, win⟩ := s
  rcases h with h | h
  · obtain ⟨job, hjob, hid⟩ := Option.map_eq_some_iff.mp (congrArg Prod.fst h)
    have hkey := congrArg Prod.snd h
    have hfinish : (uiThread env).finish ⟨app, win⟩ =
        ((app.advanceScrolledJob win).1, ⟨(app.advanceScrolledJob win).2, win⟩) := by
      simp only [uiThread, show app.scrolledJob = some job from hjob]
    rw [hfinish]
    unfold TodoApp.advanceScrolledJob
    rw [show app.scrolledJob = some job from hjob]
    dsimp only
    split
    next => exact .inr ⟨rfl, rfl⟩
    next result _ =>
      exact .inl ⟨_, rfl, (Response.ofDispatch_id _ _).trans hid, Prod.ext rfl hkey⟩
  · obtain ⟨pending, hpending, hid⟩ := Option.map_eq_some_iff.mp (congrArg Prod.snd h)
    have hjob : app.scrolledJob = none := Option.map_eq_none_iff.mp (congrArg Prod.fst h)
    have hfinish : (uiThread env).finish ⟨app, win⟩ =
        ((app.finishKeybindingFire win).1, ⟨(app.finishKeybindingFire win).2, win⟩) := by
      simp only [uiThread, hjob]
    rw [hfinish]
    unfold TodoApp.finishKeybindingFire
    rw [show app.pendingKeybinding = some pending from hpending]
    refine .inl ⟨_, rfl, (Response.ofDispatch_id _ _).trans hid, ?_⟩
    simp [TodoApp.owed, hjob]

/-- The desktop app answers every request under its id. -/
def correlatedUi (env : Env) : CorrelatedUi Desktop DesktopInput where
  toUiThread := uiThread env
  Owes := fun s owed => s.app.owed = (owed, none) ∨ s.app.owed = (none, owed)
  serve_reply := by
    intro s posted resp idle hresp
    have idle : s.app.owed = (none, none) := idle.elim id id
    obtain ⟨hid, kept⟩ := (@TodoApp.serveOne_settles env _ _ _).replied resp hresp
    exact ⟨hid, .inl (kept.trans idle)⟩
  serve_defer := by
    intro s posted idle hnone
    exact TodoApp.serveOne_settles.deferred hnone (idle.elim id id)
  finish_reply := by
    intro s id resp owes hresp
    rcases finish_owed owes with ⟨resp', hresp', hid, paid⟩ | ⟨hnone, -⟩
    · obtain rfl := Option.some.inj (hresp'.symm.trans hresp)
      exact ⟨hid, .inl paid⟩
    · cases hnone.symm.trans hresp
  finish_defer := by
    intro s id owes hnone
    rcases finish_owed owes with ⟨resp, hresp, -⟩ | ⟨-, kept⟩
    · cases hresp.symm.trans hnone
    · exact kept ▸ owes
  react_owes := by
    intro s input owed h
    cases input with
    | ui listener => exact h
    | window win => exact h

end Desktop

end GpuiAgent
