import GpuiAgent.Framework.Chronicle
import GpuiAgent.Server.HostExit
import GpuiAgent.Todo.DaemonBridge

namespace GpuiAgent

open Framework

/-- The command that a call is made for. -/
def WorkerPhase.hand : WorkerPhase → List Cmd
  | .calling (.command cmd) _ _ => [cmd]
  | _ => []

def Errand.hand : Errand → List Cmd
  | .command cmd => [cmd]
  | .look => []

namespace BridgeNote

def cmd? : BridgeNote → Option Cmd
  | .called cmd _ => some cmd
  | .looked _ => none

/-- What the window is told of it. A command that succeeds is not reported, its effect is seen. -/
def view? : BridgeNote → Option (Except String TodoView)
  | .called _ (.ok _) => none
  | .called _ (.error err) => some (.error err)
  | .looked view => some view

section Read

variable (cmd : Cmd) (resp : Response) (err : String) (result : Except String Response)
  (view : Except String TodoView)

@[simp] theorem cmd?_called : (called cmd result).cmd? = some cmd := rfl

@[simp] theorem cmd?_looked : (looked view).cmd? = none := rfl

@[simp] theorem view?_called_ok : (called cmd (.ok resp)).view? = none := rfl

@[simp] theorem view?_called_error : (called cmd (.error err)).view? = some (.error err) := rfl

@[simp] theorem view?_looked : (looked view).view? = some view := rfl

end Read

/-- What a note says of the step that it was made in: the daemon took the command and answered ok,
or the view is that of its tree. -/
def Holds (env : Env) (s t : BridgeSystem) : BridgeNote → Prop
  | .called cmd (.ok _) =>
    (s.daemon.dispatch env cmd.op).1.isOk = true ∧ t.daemon = (s.daemon.dispatch env cmd.op).2
  | .looked (.ok view) => t.daemon = s.daemon ∧ view = TodoView.fromTree s.daemon.tree
  | _ => True

end BridgeNote

/-- The window shows the last view that came, and an error only where it came last. -/
def DaemonApp.Shows (app : DaemonApp) (shown : List (Except String TodoView)) : Prop :=
  app.view = ((shown.filterMap Except.toOption).getLast?).getD .default ∧
    app.daemonError = shown.getLast?.bind fun view => match view with
      | .ok _ => none
      | .error err => some err

theorem DaemonApp.shows_ok (shown : List (Except String TodoView)) (view : TodoView)
    (input : String) : DaemonApp.Shows ⟨view, none, input⟩ (shown ++ [.ok view]) := by
  constructor
  · simp [Except.toOption]
  · simp

theorem DaemonApp.Shows.error {app : DaemonApp} {shown : List (Except String TodoView)}
    (h : app.Shows shown) (err : String) :
    DaemonApp.Shows { app with daemonError := some err } (shown ++ [.error err]) := by
  constructor
  · simpa [Except.toOption] using h.1
  · simp

namespace BridgeSystem

/-- What holds of a window and a worker that goes on, with these commands in its hands. -/
structure Live (hand : List Cmd) (s : BridgeSystem) : Prop where
  window : s.views.receiver = s.cmds.sender
  fifo : s.given = s.notes.filterMap BridgeNote.cmd? ++ hand ++ s.cmds.queue
  sent : s.cmds.sender = true → s.sent = s.notes.filterMap BridgeNote.view?
  shown : (s.shown ++ s.views.queue).Sublist s.sent
  screen : s.app.Shows s.shown
  ends : s.cmds.receiver = true ∧ s.views.sender = true

/-- The worker ends only after the window. -/
structure Kept (s : BridgeSystem) : Prop where
  live : s.phase ≠ .exited → s.Live s.phase.hand
  gone : s.phase = .exited → s.cmds.sender = false
  shown : s.shown.Sublist s.sent
  screen : s.app.Shows s.shown

variable {env : Env} {connect : Except String AgentClient} {s : BridgeSystem} {hand : List Cmd}
  {cmd : Cmd}

theorem Live.kept {phase : WorkerPhase} (h : s.Live phase.hand) (hphase : s.phase = phase)
    (hlive : phase ≠ .exited) : s.Kept where
  live _ := hphase ▸ h
  gone hexited := absurd (hphase.symm.trans hexited) hlive
  shown := (List.sublist_append_left _ _).trans h.shown
  screen := h.screen

theorem Kept.at {phase : WorkerPhase} (h : s.Kept) (hphase : s.phase = phase)
    (hlive : phase ≠ .exited) : s.Live phase.hand := by
  have hkept := h.live (hphase ▸ hlive)
  rwa [hphase] at hkept

/-- The worker's own place and client are nobody else's business. -/
theorem Live.move (h : s.Live hand) (client : Option AgentClient) (phase : WorkerPhase) :
    Live hand { s with client, phase } :=
  ⟨h.window, h.fifo, h.sent, h.shown, h.screen, h.ends⟩

section Worker

/-- A report reaches the window, or the window is gone and the worker ends. -/
theorem report_kept {view : Except String TodoView} {next : BridgeSystem → BridgeSystem}
    (window : s.views.receiver = s.cmds.sender)
    (fifo : s.given = s.notes.filterMap BridgeNote.cmd? ++ hand ++ s.cmds.queue)
    (sent : s.cmds.sender = true → s.sent ++ [view] = s.notes.filterMap BridgeNote.view?)
    (shown : (s.shown ++ s.views.queue).Sublist s.sent) (screen : s.app.Shows s.shown)
    (ends : s.cmds.receiver = true ∧ s.views.sender = true)
    (hnext : ∀ s', Live hand s' → Kept (next s')) : Kept (s.report view next) := by
  unfold report
  cases hreceiver : s.views.receiver with
  | true =>
    rw [Channel.send_of_receiver hreceiver]
    refine hnext _ ⟨window, fifo, sent, ?_, screen, ends⟩
    have hsub := shown.append (List.Sublist.refl [view])
    rw [List.append_assoc] at hsub
    exact hsub
  | false =>
    rw [Channel.send, hreceiver]
    have hshown : s.shown.Sublist s.sent := (List.sublist_append_left _ _).trans shown
    exact ⟨fun hlive => absurd rfl hlive, fun _ => window.symm.trans hreceiver, hshown, screen⟩

theorem endLook_kept (h : s.Live []) (result : Except String Response) :
    Kept (s.endLook result) := by
  have hpolling (s' : BridgeSystem) (hs' : Live [] s') : Kept { s' with phase := .polling } :=
    @Live.kept _ .polling (hs'.move s'.client .polling) rfl nofun
  cases result with
  | error err =>
    have hsent : s.cmds.sender = true → s.sent ++ [.error err] =
        (s.notes ++ [BridgeNote.looked (.error err)]).filterMap BridgeNote.view? := by
      intro hsender
      simp [h.sent hsender]
    have hfifo : s.given = (s.notes ++ [BridgeNote.looked (.error err)]).filterMap
        BridgeNote.cmd? ++ [] ++ s.cmds.queue := by
      simpa [List.filterMap_cons] using h.fifo
    rw [endLook]
    exact report_kept h.window hfifo hsent h.shown h.screen h.ends hpolling
  | ok resp =>
    rw [endLook]
    cases resp.tree with
    | none => exact hpolling s h
    | some tree =>
      dsimp only
      have hsent : s.cmds.sender = true → s.sent ++ [.ok (TodoView.fromTree tree)] =
          (s.notes ++ [BridgeNote.looked (.ok (TodoView.fromTree tree))]).filterMap
            BridgeNote.view? := by
        intro hsender
        simp [h.sent hsender]
      have hfifo : s.given =
          (s.notes ++ [BridgeNote.looked (.ok (TodoView.fromTree tree))]).filterMap
            BridgeNote.cmd? ++ [] ++ s.cmds.queue := by
        simpa [List.filterMap_cons] using h.fifo
      exact report_kept h.window hfifo hsent h.shown h.screen h.ends hpolling

/-- Where a call can start, it holds what it is made for. -/
theorem startCall_kept (errand : Errand) {s' : BridgeSystem} (h : s.Live errand.hand)
    (hstart : s.startCall connect errand = .ok s') : Kept s' := by
  unfold startCall at hstart
  split at hstart
  · cases hstart
  · obtain rfl := Except.ok.inj hstart
    have hhand : ∀ id, (WorkerPhase.calling errand id "").hand = errand.hand := by
      cases errand <;> exact fun _ => rfl
    refine Live.kept ?_ rfl nofun
    rw [hhand]
    exact h.move _ _

theorem beginLook_kept (h : s.Live []) : Kept (s.beginLook connect) := by
  unfold beginLook
  cases hstart : s.startCall connect .look with
  | error err => exact endLook_kept h _
  | ok s' => exact startCall_kept .look h hstart

theorem endCommand_kept (h : s.Live [cmd]) (result : Except String Response) :
    Kept (s.endCommand connect cmd result) := by
  have hfifo : s.given = (s.notes ++ [BridgeNote.called cmd result]).filterMap
      BridgeNote.cmd? ++ [] ++ s.cmds.queue := by
    simpa [List.filterMap_cons] using h.fifo
  cases result with
  | ok resp =>
    refine beginLook_kept ⟨h.window, hfifo, ?_, h.shown, h.screen, h.ends⟩
    intro hsender
    simpa [List.filterMap_cons] using h.sent hsender
  | error err =>
    refine @report_kept _ [] _ _ h.window hfifo ?_ h.shown h.screen h.ends
      fun s' hs' => beginLook_kept hs'
    intro hsender
    simp [h.sent hsender]

theorem beginCommand_kept (h : s.Live [cmd]) : Kept (s.beginCommand connect cmd) := by
  unfold beginCommand
  cases hstart : s.startCall connect (.command cmd) with
  | error err => exact endCommand_kept h _
  | ok s' => exact startCall_kept (.command cmd) h hstart

theorem endCall_kept {errand : Errand} (h : s.Live errand.hand)
    (result : Except String Response) : Kept (s.endCall connect errand result) := by
  cases errand with
  | command cmd => exact endCommand_kept h result
  | look => exact endLook_kept h result

theorem recv_kept (h : s.Kept) : Kept (s.recv connect) := by
  unfold recv
  cases hphase : s.phase with
  | exited => exact h
  | calling errand id lastErr => exact h
  | polling =>
    have hlive : s.Live [] := h.at hphase nofun
    dsimp only
    unfold Channel.tryRecv
    cases hqueue : s.cmds.queue with
    | cons cmd queue =>
      refine beginCommand_kept ⟨hlive.window, ?_, hlive.sent, hlive.shown, hlive.screen, hlive.ends⟩
      have hfifo := hlive.fifo
      rw [hqueue] at hfifo
      simpa using hfifo
    | nil =>
      cases hsender : s.cmds.sender with
      | true => exact beginLook_kept hlive
      | false =>
        have hshown : s.shown.Sublist s.sent := (List.sublist_append_left _ _).trans hlive.shown
        exact ⟨fun hlive => absurd rfl hlive, fun _ => hsender, hshown, hlive.screen⟩

/-- What the daemon and its lines do is not seen in the channels. -/
theorem Live.serve (h : s.Live hand) (daemon : TodoStore) (stray : List Op) :
    Live hand { s with daemon, stray } :=
  ⟨h.window, h.fifo, h.sent, h.shown, h.screen, h.ends⟩

theorem deliver_live (h : s.Live hand) (id : Nat) (op : Op) (fate : LineFate)
    (log : List LineWrite) : Live hand (s.deliver env id op fate log) := by
  unfold deliver
  cases log with
  | nil => exact h
  | cons w log =>
    dsimp only
    split_ifs
    · exact h.serve s.daemon _
    · cases fate with
      | served => exact h.serve _ s.stray
      | refused error => exact h
      | stray => exact h.serve s.daemon _

theorem hand_calling (errand : Errand) (id : Nat) (lastErr : String) :
    (WorkerPhase.calling errand id lastErr).hand = errand.hand := by
  cases errand <;> rfl

theorem attempt_kept (h : s.Kept) (a : Attempt) (fate : LineFate) :
    Kept (s.attempt env connect a fate) := by
  unfold attempt
  split
  next errand id lastErr c hphase hclient =>
    have hlive := h.at hphase nofun
    rw [hand_calling] at hlive
    dsimp only
    obtain ⟨result, c', log⟩ :=
      c.roundtripWire id errand.op (hearing a (s.reply env id errand.op fate))
    have hlater := @deliver_live env _ _ hlive id errand.op fate log
    cases result with
    | ok resp => exact endCall_kept (hlater.move (some c') _) resp.expectOk
    | error err =>
      refine @Live.kept _ (.calling errand id err) ?_ rfl nofun
      rw [hand_calling]
      exact hlater.move (some c') _
  next => exact h

theorem expire_kept (h : s.Kept) : Kept (s.expire connect) := by
  unfold expire
  split
  next errand id lastErr c hphase hclient =>
    have hlive := h.at hphase nofun
    rw [hand_calling] at hlive
    exact endCall_kept hlive _
  next => exact h

/-- The daemon's own steps keep what holds of the window and the worker. -/
theorem Kept.serve (h : s.Kept) (daemon : TodoStore) (stray : List Op) :
    Kept { s with daemon, stray } :=
  ⟨fun hlive => (h.live hlive).serve daemon stray, h.gone, h.shown, h.screen⟩

end Worker

section Window

/-- The window takes what there is and shows the last of it. -/
theorem Kept.show (h : s.Kept) (app : DaemonApp) (view : Except String TodoView)
    (hshown : (s.shown ++ [view]).Sublist s.sent) (hscreen : app.Shows (s.shown ++ [view])) :
    Kept { s with app, views := { s.views with queue := [] }, shown := s.shown ++ [view] } where
  live hlive := by
    obtain ⟨hwindow, hfifo, hsent, -, -, hends⟩ := h.live hlive
    refine ⟨hwindow, hfifo, hsent, ?_, hscreen, hends⟩
    simpa using hshown
  gone := h.gone
  shown := hshown
  screen := hscreen

theorem applyDaemon_kept (h : s.Kept) (hsender : s.cmds.sender = true) :
    Kept s.applyDaemon := by
  have hlive := h.live fun hexited => by simp [h.gone hexited] at hsender
  unfold applyDaemon poll
  rcases s.views.drain_cases with ⟨hqueue, hdrain⟩ | ⟨hqueue, hdrain⟩
  · rw [hdrain, hlive.ends.2, if_pos rfl]
    exact h
  · rw [hdrain]
    dsimp only
    have hlast : [s.views.queue.getLast hqueue].Sublist s.views.queue := by
      rw [List.singleton_sublist]
      exact List.getLast_mem hqueue
    have hshown : (s.shown ++ [s.views.queue.getLast hqueue]).Sublist s.sent :=
      ((List.Sublist.refl _).append hlast).trans hlive.shown
    generalize s.views.queue.getLast hqueue = last at hshown
    cases last with
    | ok view => exact h.show _ _ hshown (DaemonApp.shows_ok s.shown view _)
    | error err => exact h.show _ _ hshown (h.screen.error err)

theorem act_kept (h : s.Kept) (hsender : s.cmds.sender = true) (action : UserAction) :
    Kept (s.act action) := by
  have hphase : s.phase ≠ .exited := fun hexited => by simp [h.gone hexited] at hsender
  have hlive := h.live hphase
  unfold act
  dsimp only
  rw [Channel.sendAll_of_receiver hlive.ends.1]
  have hfifo : s.given ++ action.commands s.app.input = s.notes.filterMap BridgeNote.cmd? ++
      s.phase.hand ++ (s.cmds.queue ++ action.commands s.app.input) := by
    rw [hlive.fifo, List.append_assoc]
  exact ⟨fun _ => ⟨hlive.window, hfifo, hlive.sent, hlive.shown, h.screen, hlive.ends⟩,
    fun hexited => absurd hexited hphase, h.shown, h.screen⟩

theorem close_kept (h : s.Kept) : Kept s.close where
  live hphase := by
    obtain ⟨hwindow, hfifo, hsent, hshown, hscreen, hends⟩ := h.live hphase
    have hclosed : s.close.cmds.sender = true → s.close.sent =
        s.close.notes.filterMap BridgeNote.view? := nofun
    refine ⟨rfl, hfifo, hclosed, ?_, hscreen, hends⟩
    simpa [close, Channel.dropReceiver] using (List.sublist_append_left _ _).trans hshown
  gone _ := rfl
  shown := h.shown
  screen := h.screen

theorem typed_kept (h : s.Kept) (text : String) :
    Kept { s with app := { s.app with input := text } } where
  live hphase := by
    obtain ⟨hwindow, hfifo, hsent, hshown, hscreen, hends⟩ := h.live hphase
    exact ⟨hwindow, hfifo, hsent, hshown, hscreen, hends⟩
  gone := h.gone
  shown := h.shown
  screen := h.screen

end Window

theorem step_kept (h : s.Kept) (e : BridgeEvent) : Kept (s.step env connect e) := by
  cases e with
  | typed text =>
    rw [step]
    split_ifs
    · exact typed_kept h text
    · exact h
  | act action =>
    rw [step]
    split_ifs with hsender
    · exact act_kept h hsender action
    · exact h
  | frame =>
    rw [step]
    split_ifs with hsender
    · exact applyDaemon_kept h hsender
    · exact h
  | close => exact close_kept h
  | recv => exact recv_kept h
  | attempt a fate => exact attempt_kept h a fate
  | expire => exact expire_kept h
  | late i =>
    rw [step, late]
    split
    · exact h.serve _ _
    · exact h
  | other op => exact h.serve _ s.stray

theorem run_kept (proc : ProcessEnv) (daemon : TodoStore) (events : List BridgeEvent) :
    Kept (run env proc daemon events) := by
  induction events using List.reverseRecOn with
  | nil =>
    refine ⟨fun _ => ⟨rfl, rfl, fun _ => rfl, List.Sublist.refl _, ⟨rfl, rfl⟩, rfl, rfl⟩, ?_,
      List.Sublist.refl _, ⟨rfl, rfl⟩⟩
    intro hexited
    cases hexited
  | append_singleton pre e ih =>
    rw [run, List.foldl_append]
    exact step_kept ih e

section Notes

variable {P : BridgeNote → Prop} {errand : Errand}

/-- The notes that are added are such. -/
def Adds (P : BridgeNote → Prop) (s t : BridgeSystem) : Prop :=
  ∃ new, t.notes = s.notes ++ new ∧ ∀ note ∈ new, P note

theorem adds_nothing {t : BridgeSystem} (h : t.notes = s.notes) : Adds P s t := by
  refine ⟨[], ?_, fun _ hnote => absurd hnote List.not_mem_nil⟩
  rw [h, List.append_nil]

theorem Adds.trans {t u : BridgeSystem} (h : Adds P s t) (h' : Adds P t u) : Adds P s u := by
  obtain ⟨new, hnew, hP⟩ := h
  obtain ⟨more, hmore, hP'⟩ := h'
  refine ⟨new ++ more, ?_, List.forall_mem_append.mpr ⟨hP, hP'⟩⟩
  rw [hmore, hnew, List.append_assoc]

theorem adds_note {note : BridgeNote} (h : P note) {t : BridgeSystem}
    (hnotes : t.notes = s.notes ++ [note]) : Adds P s t :=
  ⟨[note], hnotes, by simpa using h⟩

theorem report_adds (view : Except String TodoView) {next : BridgeSystem → BridgeSystem}
    (hnext : ∀ s', s'.notes = s.notes → s'.daemon = s.daemon →
      Adds P s' (next s') ∧ (next s').daemon = s.daemon) :
    Adds P s (s.report view next) ∧ (s.report view next).daemon = s.daemon := by
  unfold report
  cases s.views.send view with
  | none => exact ⟨adds_nothing rfl, rfl⟩
  | some views => exact hnext { s with views, sent := s.sent ++ [view] } rfl rfl

/-- What the end of a snapshot's call adds, and that it leaves the daemon. -/
theorem endLook_adds {result : Except String Response} (herr : ∀ err, P (.looked (.error err)))
    (hok : ∀ resp tree, result = .ok resp → resp.tree = some tree →
      P (.looked (.ok (TodoView.fromTree tree)))) :
    Adds P s (s.endLook result) ∧ (s.endLook result).daemon = s.daemon := by
  cases result with
  | error err =>
    rw [endLook]
    obtain ⟨hadds, hdaemon⟩ := @report_adds
      { s with client := none, notes := s.notes ++ [.looked (.error err)] } P (.error err)
      (fun s => { s with phase := .polling }) fun s' _ hs' => ⟨adds_nothing rfl, hs'⟩
    exact ⟨(adds_note (herr err) rfl).trans hadds, hdaemon⟩
  | ok resp =>
    rw [endLook]
    cases htree : resp.tree with
    | none => exact ⟨adds_nothing rfl, rfl⟩
    | some tree =>
      obtain ⟨hadds, hdaemon⟩ := @report_adds
        { s with notes := s.notes ++ [.looked (.ok (TodoView.fromTree tree))] } P
        (.ok (TodoView.fromTree tree)) (fun s => { s with phase := .polling })
        fun s' _ hs' => ⟨adds_nothing rfl, hs'⟩
      exact ⟨(adds_note (hok resp tree rfl htree) rfl).trans hadds, hdaemon⟩

theorem startCall_same {s' : BridgeSystem} (h : s.startCall connect errand = .ok s') :
    s'.notes = s.notes ∧ s'.daemon = s.daemon := by
  unfold startCall at h
  split at h
  · cases h
  · obtain rfl := Except.ok.inj h
    exact ⟨rfl, rfl⟩

theorem beginLook_adds (herr : ∀ err, P (.looked (.error err))) :
    Adds P s (s.beginLook connect) ∧ (s.beginLook connect).daemon = s.daemon := by
  unfold beginLook
  cases hstart : s.startCall connect .look with
  | error err => exact endLook_adds herr fun resp tree h => by cases h
  | ok s' =>
    obtain ⟨hnotes, hdaemon⟩ := startCall_same hstart
    exact ⟨adds_nothing hnotes, hdaemon⟩

theorem endCommand_adds {result : Except String Response} (herr : ∀ err, P (.looked (.error err)))
    (hresult : P (.called cmd result)) :
    Adds P s (s.endCommand connect cmd result) ∧
      (s.endCommand connect cmd result).daemon = s.daemon := by
  cases result with
  | ok resp =>
    obtain ⟨hadds, hdaemon⟩ := @beginLook_adds connect
      { s with notes := s.notes ++ [.called cmd (.ok resp)] } P herr
    exact ⟨(adds_note hresult rfl).trans hadds, hdaemon⟩
  | error err =>
    obtain ⟨hadds, hdaemon⟩ := @report_adds
      { s with client := none, notes := s.notes ++ [.called cmd (.error err)] } P (.error err)
      (fun s => s.beginLook connect) fun s' _ hs' => by
        obtain ⟨hadds, hdaemon⟩ := @beginLook_adds connect s' P herr
        exact ⟨hadds, hdaemon.trans hs'⟩
    exact ⟨(adds_note hresult rfl).trans hadds, hdaemon⟩

theorem beginCommand_adds (herr : ∀ err, P (.looked (.error err)))
    (hcall : ∀ err, P (.called cmd (.error err))) :
    Adds P s (s.beginCommand connect cmd) ∧ (s.beginCommand connect cmd).daemon = s.daemon := by
  unfold beginCommand
  cases hstart : s.startCall connect (.command cmd) with
  | error err => exact endCommand_adds herr (hcall err)
  | ok s' =>
    obtain ⟨hnotes, hdaemon⟩ := startCall_same hstart
    exact ⟨adds_nothing hnotes, hdaemon⟩

theorem endCall_adds {result : Except String Response} (herr : ∀ err, P (.looked (.error err)))
    (hcall : ∀ cmd, errand = .command cmd → P (.called cmd result))
    (hlook : ∀ resp tree, errand = .look → result = .ok resp → resp.tree = some tree →
      P (.looked (.ok (TodoView.fromTree tree)))) :
    Adds P s (s.endCall connect errand result) ∧
      (s.endCall connect errand result).daemon = s.daemon := by
  cases errand with
  | command cmd => exact endCommand_adds herr (hcall cmd rfl)
  | look => exact endLook_adds herr fun resp tree => hlook resp tree rfl

theorem recv_adds (herr : ∀ err, P (.looked (.error err)))
    (hcall : ∀ cmd err, P (.called cmd (.error err))) : Adds P s (s.recv connect) := by
  unfold recv
  cases s.phase with
  | exited => exact adds_nothing rfl
  | calling errand id lastErr => exact adds_nothing rfl
  | polling =>
    dsimp only
    unfold Channel.tryRecv
    cases s.cmds.queue with
    | cons cmd queue => exact (beginCommand_adds herr (hcall cmd)).1
    | nil =>
      cases s.cmds.sender with
      | true => exact (beginLook_adds herr).1
      | false => exact adds_nothing rfl

end Notes

section Served

/-- The daemon answers a command as it dispatches it. -/
theorem answer_command (id : Nat) : s.answer env id (Errand.command cmd).op =
    (.ofDispatch (fmtU64 (UInt64.ofNat id)) (s.daemon.dispatch env cmd.op).1,
      (s.daemon.dispatch env cmd.op).2) := by
  cases cmd with
  | click target => rfl
  | setValue target value => rfl

/-- A snapshot leaves the daemon and shows its tree. -/
theorem answer_look (id : Nat) : (s.answer env id Errand.look.op).2 = s.daemon ∧
    ∃ rev, (s.answer env id Errand.look.op).1.tree = some { s.daemon.tree with rev } := by
  refine ⟨rfl, some s.daemon.rev, rfl⟩

theorem hearing_read {a : Attempt} {reply : Option Response} {i : Nat} {resp : Response}
    (h : (hearing a reply).read i = .line resp) : reply = some resp := by
  unfold hearing at h
  dsimp only at h
  cases hread : a.read i <;> cases reply <;> simp_all

/-- A call ends well with the line that is read, and only if its own line went out in full. -/
theorem exchangeWire_ok {a : Attempt} {id : Nat} {op : Op} {resp : Response}
    {log : List LineWrite} (h : exchangeWire a id op = (.ok resp, log)) :
    a.read 0 = .line resp ∧ log = [⟨id, op, true⟩] := by
  unfold exchangeWire at h
  cases hwrite : a.write 0 with
  | unsent error =>
    rw [hwrite] at h
    cases h
  | cut error =>
    rw [hwrite] at h
    cases h
  | complete =>
    rw [hwrite] at h
    cases hflush : a.flush with
    | error error => simp [hflush] at h
    | ok u => cases hread : a.read 0 <;> simp_all

/-- Only the reply that was meant for it ends a call well. -/
theorem roundtripWire_hearing {c c' : AgentClient} {id : Nat} {op : Op} {a : Attempt}
    {reply : Option Response} {resp : Response} {log : List LineWrite}
    (h : c.roundtripWire id op (hearing a reply) = (.ok resp, c', log)) :
    reply = some resp ∧ log = [⟨id, op, true⟩] := by
  unfold AgentClient.roundtripWire at h
  cases hopen : if c.session then (hearing a reply).setTimeout else (hearing a reply).connect with
  | error error =>
    rw [hopen] at h
    cases h
  | ok u =>
    rw [hopen] at h
    dsimp only at h
    cases hwire : exchangeWire (hearing a reply) id op with
    | mk result log' =>
      rw [hwire] at h
      cases result with
      | error error => cases h
      | ok resp' =>
        obtain ⟨hresp, hrest⟩ := Prod.mk.inj h
        obtain ⟨-, rfl⟩ := Prod.mk.inj hrest
        obtain rfl := Except.ok.inj hresp
        obtain ⟨hread, hlog⟩ := exchangeWire_ok hwire
        exact ⟨hearing_read hread, hlog⟩

/-- A call that ends well has its op taken by the daemon, which answers ok. -/
theorem served_of_ok {id : Nat} {op : Op} {fate : LineFate} {resp resp' : Response}
    {log : List LineWrite} (hreply : s.reply env id op fate = some resp)
    (hlog : log = [⟨id, op, true⟩]) (hok : resp.expectOk = .ok resp') :
    resp' = (s.answer env id op).1 ∧ resp'.ok = true ∧
      (s.deliver env id op fate log).daemon = (s.answer env id op).2 := by
  unfold Response.expectOk at hok
  split_ifs at hok with hresp
  obtain rfl := Except.ok.inj hok
  subst hlog
  cases fate with
  | stray => cases hreply
  | refused error =>
    obtain rfl := Option.some_inj.mp hreply
    cases hresp
  | served =>
    obtain rfl := Option.some_inj.mp hreply
    exact ⟨rfl, hresp, rfl⟩

theorem deliver_notes (id : Nat) (op : Op) (fate : LineFate) (log : List LineWrite) :
    (s.deliver env id op fate log).notes = s.notes := by
  unfold deliver
  cases log with
  | nil => rfl
  | cons w log =>
    dsimp only
    split_ifs
    · rfl
    · cases fate <;> rfl

/-- What an attempt notes is true of it. -/
theorem attempt_adds (a : Attempt) (fate : LineFate) :
    Adds (BridgeNote.Holds env s (s.attempt env connect a fate)) s
      (s.attempt env connect a fate) := by
  generalize hdone : s.attempt env connect a fate = t
  unfold attempt at hdone
  split at hdone
  next errand id lastErr c hphase hclient =>
    dsimp only at hdone
    cases hwire : c.roundtripWire id errand.op (hearing a (s.reply env id errand.op fate)) with
    | mk result rest =>
      obtain ⟨c', log⟩ := rest
      rw [hwire] at hdone
      dsimp only at hdone
      cases result with
      | error err =>
        subst hdone
        exact adds_nothing (deliver_notes id errand.op fate log)
      | ok resp =>
        obtain ⟨hreply, hlog⟩ := roundtripWire_hearing hwire
        dsimp only at hdone
        generalize hlater : { s.deliver env id errand.op fate log with client := some c' } = later
          at hdone
        have hnotes : later.notes = s.notes := by
          rw [← hlater]
          exact deliver_notes id errand.op fate log
        have hdaemon : t.daemon = (s.deliver env id errand.op fate log).daemon := by
          rw [← hdone, ← hlater]
          exact (@endCall_adds connect _ (fun _ => True) errand _ (fun _ => trivial)
            (fun _ _ => trivial) fun _ _ _ _ _ => trivial).2
        have hadds : Adds (BridgeNote.Holds env s t) later
            (later.endCall connect errand resp.expectOk) := by
          refine (endCall_adds (fun err => trivial) ?_ ?_).1
          · rintro cmd rfl
            cases hok : resp.expectOk with
            | error err => trivial
            | ok resp' =>
              obtain ⟨rfl, hresp, hserved⟩ := served_of_ok hreply hlog hok
              rw [answer_command] at hresp hserved
              rw [ofDispatch_ok] at hresp
              exact ⟨hresp, hdaemon.trans hserved⟩
          · rintro resp' tree rfl hok htree
            obtain ⟨rfl, -, hserved⟩ := served_of_ok hreply hlog hok
            obtain ⟨hkept, rev, hshown⟩ := @answer_look env s id
            obtain rfl := Option.some_inj.mp (hshown.symm.trans htree)
            exact ⟨hdaemon.trans (hserved.trans hkept), rfl⟩
        obtain ⟨new, hnew, hholds⟩ := hadds
        rw [hdone, hnotes] at hnew
        exact ⟨new, hnew, hholds⟩
  next =>
    subst hdone
    exact adds_nothing rfl

theorem expire_adds : Adds (BridgeNote.Holds env s (s.expire connect)) s (s.expire connect) := by
  generalize hdone : s.expire connect = t
  unfold expire at hdone
  split at hdone
  · subst hdone
    exact (endCall_adds (fun _ => trivial) (fun _ _ => trivial) fun _ _ _ h => by cases h).1
  · subst hdone
    exact adds_nothing rfl

theorem applyDaemon_notes : s.applyDaemon.notes = s.notes := by
  unfold applyDaemon
  split <;> rfl

/-- What a step notes is true of it. -/
theorem step_adds (e : BridgeEvent) :
    Adds (BridgeNote.Holds env s (s.step env connect e)) s (s.step env connect e) := by
  cases e with
  | typed text =>
    rw [step]
    split_ifs <;> exact adds_nothing rfl
  | act action =>
    rw [step]
    split_ifs <;> exact adds_nothing rfl
  | frame =>
    rw [step]
    split_ifs
    · exact adds_nothing applyDaemon_notes
    · exact adds_nothing rfl
  | close => exact adds_nothing rfl
  | recv => exact recv_adds (fun _ => trivial) fun _ _ => trivial
  | attempt a fate => exact attempt_adds a fate
  | expire => exact expire_adds
  | late i =>
    rw [step, late]
    split <;> exact adds_nothing rfl
  | other op => exact adds_nothing rfl

end Served

/-- What a user can rely on at a window that is a client of the daemon. The commands are called in
the order in which they were given, and as long as the window is there the worker goes on and tells
it of each call that fails. The window may skip views, but shows none after a newer one. A command
that succeeds was taken by the daemon, and a view was the daemon's own, one after the other. -/
structure Faithful (env : Env) (proc : ProcessEnv) (daemon : TodoStore) (events : List BridgeEvent)
    (s : BridgeSystem) : Prop where
  inOrder : s.phase ≠ .exited →
    s.given = s.notes.filterMap BridgeNote.cmd? ++ s.phase.hand ++ s.cmds.queue
  told : s.cmds.sender = true →
    s.phase ≠ .exited ∧ s.sent = s.notes.filterMap BridgeNote.view?
  shown : s.shown.Sublist s.sent
  screen : s.app.Shows s.shown
  chronicled : Chronicled (step env (connectClient proc)) { daemon } notes
    (fun s t note => note.Holds env s t) events

/-- In every run of the window, the worker of its bridge, the daemon and the daemon's other clients,
whatever becomes of the connections, the window is a faithful client. -/
theorem bridge_faithful (env : Env) (proc : ProcessEnv) (daemon : TodoStore)
    (events : List BridgeEvent) : Faithful env proc daemon events (run env proc daemon events) := by
  have hkept : Kept (run env proc daemon events) := run_kept proc daemon events
  have hlive (hsender : (run env proc daemon events).cmds.sender = true) :
      (run env proc daemon events).phase ≠ .exited := by
    intro hexited
    rw [hkept.gone hexited] at hsender
    cases hsender
  refine ⟨fun hphase => (hkept.live hphase).fifo, fun hsender => ?_, hkept.shown, hkept.screen, ?_⟩
  · exact ⟨hlive hsender, (hkept.live (hlive hsender)).sent hsender⟩
  · refine chronicled_run rfl (fun s e => ?_) events
    obtain ⟨new, hnew, hholds⟩ := @step_adds env (connectClient proc) s e
    exact ⟨new, hnew, hholds⟩

end BridgeSystem

end GpuiAgent
