import GpuiAgent.Todo.BridgeHistory

namespace GpuiAgent

open Framework

/-- A view without the draft: a window draws its own input. -/
def TodoView.screen (view : TodoView) : TodoView := { view with draft := "" }

namespace TodoStore

/-- Two stores with the same to-dos, the same next id and the same look. -/
structure Alike (d e : TodoStore) : Prop where
  items : d.items = e.items
  nextId : d.nextId = e.nextId
  page : d.page = e.page
  confirmDelete : d.confirmDelete = e.confirmDelete
  sidebarOpen : d.sidebarOpen = e.sidebarOpen

variable {d e : TodoStore}

theorem Alike.screen (h : d.Alike e) : d.shownView.screen = e.shownView.screen := by
  unfold shownView TodoView.screen
  rw [h.page]
  cases e.page with
  | todos => simp [h.items, h.sidebarOpen]
  | settings => simp [h.confirmDelete, h.sidebarOpen]

theorem Alike.add (h : d.Alike e) (title : String) : (d.add title).2.Alike (e.add title).2 := by
  unfold TodoStore.add
  dsimp only
  split_ifs
  · exact h
  · refine ⟨?_, ?_, h.page, h.confirmDelete, h.sidebarOpen⟩
    · show d.items ++ _ = e.items ++ _
      rw [h.items, h.nextId]
    · show wrappingAdd d.nextId 1 = wrappingAdd e.nextId 1
      rw [h.nextId]

theorem Alike.toggle (h : d.Alike e) (id : Nat) : (d.toggle id).2.Alike (e.toggle id).2 := by
  unfold TodoStore.toggle
  rw [h.items]
  cases e.items.find? fun item => item.id = id with
  | none => exact h
  | some item => exact ⟨rfl, h.nextId, h.page, h.confirmDelete, h.sidebarOpen⟩

theorem Alike.delete (h : d.Alike e) (id : Nat) : (d.delete id).2.Alike (e.delete id).2 := by
  unfold TodoStore.delete
  rw [h.items]
  cases e.items.find? fun item => item.id = id with
  | none => exact h
  | some item => exact ⟨rfl, h.nextId, h.page, h.confirmDelete, h.sidebarOpen⟩

/-- The daemon after a command. -/
def take (env : Env) (s : TodoStore) (cmd : Cmd) : TodoStore := (s.dispatch env cmd.op).2

theorem take_click (env : Env) (s : TodoStore) (target : String) :
    s.take env (.click target) = (s.click target).2 := rfl

theorem take_setValue (env : Env) (s : TodoStore) (target value : String) :
    s.take env (.setValue target value) = (s.setValue target value).2 := rfl

section Click

variable (s : TodoStore)

theorem click_navToggle : (s.click ids.NAV_TOGGLE).2 = s.toggleSidebar := by
  rw [click, if_pos rfl]

theorem click_navTodos : (s.click ids.NAV_TODOS).2 = s.go .todos := by
  rw [click, if_neg (by decide), if_pos rfl]

theorem click_navSettings : (s.click ids.NAV_SETTINGS).2 = s.go .settings := by
  rw [click, if_neg (by decide), if_neg (by decide), if_pos rfl]

theorem click_confirmDelete : (s.click ids.SETTINGS_CONFIRM_DELETE).2 = s.toggleConfirmDelete := by
  rw [click, if_neg (by decide), if_neg (by decide), if_neg (by decide), if_pos rfl]

theorem click_add : (s.click ids.ADD).2 = (s.add s.draft).2 := by
  rw [click, if_neg (by decide), if_neg (by decide), if_neg (by decide), if_neg (by decide),
    if_pos rfl, withTodo_snd, addFromDraft]

theorem setValue_input (value : String) :
    (s.setValue ids.INPUT value).2 = { s with draft := value }.bumpRevision := by
  rw [setValue, if_neg (by decide)]

/-- The id of an item's node is none of the others that can be clicked. -/
theorem numbered_ne (pre : String) (n : Nat) (h : ∀ static ∈ [ids.NAV_TOGGLE, ids.NAV_TODOS,
    ids.NAV_SETTINGS, ids.SETTINGS_CONFIRM_DELETE, ids.ADD], startsWith static pre = false) :
    ∀ static ∈ [ids.NAV_TOGGLE, ids.NAV_TODOS, ids.NAV_SETTINGS, ids.SETTINGS_CONFIRM_DELETE,
      ids.ADD], pre ++ toString n ≠ static := by
  intro static hstatic heq
  have hfalse := h static hstatic
  rw [← heq, startsWith_append] at hfalse
  cases hfalse

theorem click_toggle {n : Nat} (h : n < 2 ^ 64) : (s.click (ids.toggle n)).2 = (s.toggle n).2 := by
  have hparse : parseNumberedId "todo-toggle-" (ids.toggle n) = some n :=
    parseNumberedId_append "todo-toggle-" h
  have hne : ∀ static ∈ [ids.NAV_TOGGLE, ids.NAV_TODOS, ids.NAV_SETTINGS,
      ids.SETTINGS_CONFIRM_DELETE, ids.ADD], ids.toggle n ≠ static :=
    numbered_ne "todo-toggle-" n (by decide)
  simp only [List.forall_mem_cons] at hne
  obtain ⟨hnav, htodos, hsettings, hconfirm, hadd, -⟩ := hne
  rw [click, if_neg hnav, if_neg htodos, if_neg hsettings, if_neg hconfirm, if_neg hadd, hparse]
  rfl

theorem click_delete {n : Nat} (h : n < 2 ^ 64) : (s.click (ids.delete n)).2 = (s.delete n).2 := by
  have htoggle : parseNumberedId "todo-toggle-" (ids.delete n) = none :=
    parseNumberedId_of_ne (startsWith_numbered_false n (by decide))
  have hparse : parseNumberedId "todo-delete-" (ids.delete n) = some n :=
    parseNumberedId_append "todo-delete-" h
  have hne : ∀ static ∈ [ids.NAV_TOGGLE, ids.NAV_TODOS, ids.NAV_SETTINGS,
      ids.SETTINGS_CONFIRM_DELETE, ids.ADD], ids.delete n ≠ static :=
    numbered_ne "todo-delete-" n (by decide)
  simp only [List.forall_mem_cons] at hne
  obtain ⟨hnav, htodos, hsettings, hconfirm, hadd, -⟩ := hne
  rw [click, if_neg hnav, if_neg htodos, if_neg hsettings, if_neg hconfirm, if_neg hadd, htoggle,
    hparse]
  rfl

end Click

/-- The commands of an action do to the daemon what the action does to a store of its own. -/
theorem Alike.act (h : d.Alike e) (env : Env) (input : String) (action : UserAction) :
    ((action.commands input).foldl (take env) d).Alike (action.embedded e input) := by
  cases action with
  | addFromInput =>
    rw [UserAction.commands, UserAction.embedded]
    by_cases hempty : (trim input).isEmpty = true
    · rw [if_pos hempty, TodoStore.add, if_pos hempty]
      exact h
    · rw [if_neg hempty, List.foldl_cons, List.foldl_cons, List.foldl_nil, take_setValue,
        setValue_input, take_click, click_add]
      have hset : ({ d with draft := input }.bumpRevision).Alike e :=
        ⟨h.items, h.nextId, h.page, h.confirmDelete, h.sidebarOpen⟩
      exact hset.add input
  | toggleSidebar =>
    rw [UserAction.commands, List.foldl_cons, List.foldl_nil, take_click, click_navToggle]
    have hopen : (!d.sidebarOpen) = !e.sidebarOpen := by rw [h.sidebarOpen]
    exact ⟨h.items, h.nextId, h.page, h.confirmDelete, hopen⟩
  | goPage page =>
    cases page with
    | todos =>
      rw [UserAction.commands, List.foldl_cons, List.foldl_nil, take_click, click_navTodos]
      exact ⟨h.items, h.nextId, rfl, h.confirmDelete, h.sidebarOpen⟩
    | settings =>
      rw [UserAction.commands, List.foldl_cons, List.foldl_nil, take_click, click_navSettings]
      exact ⟨h.items, h.nextId, rfl, h.confirmDelete, h.sidebarOpen⟩
  | toggleItem itemId =>
    rw [UserAction.commands, List.foldl_cons, List.foldl_nil, take_click,
      click_toggle d itemId.toNat_lt]
    exact h.toggle itemId.toNat
  | deleteItem itemId =>
    rw [UserAction.commands, List.foldl_cons, List.foldl_nil, take_click,
      click_delete d itemId.toNat_lt]
    exact h.delete itemId.toNat
  | toggleConfirmDelete =>
    rw [UserAction.commands, List.foldl_cons, List.foldl_nil, take_click, click_confirmDelete]
    have hconfirm : (!d.confirmDelete) = !e.confirmDelete := by rw [h.confirmDelete]
    exact ⟨h.items, h.nextId, h.page, hconfirm, h.sidebarOpen⟩

/-- The store of the build with a host of its own after what a user did. -/
def afterActions (s : TodoStore) (acted : List (String × UserAction)) : TodoStore :=
  acted.foldl (fun s done => done.2.embedded s done.1) s

theorem Alike.afterActions (h : d.Alike e) (env : Env) (acted : List (String × UserAction)) :
    ((acted.flatMap fun done => done.2.commands done.1).foldl (take env) d).Alike
      (e.afterActions acted) := by
  induction acted generalizing d e with
  | nil => exact h
  | cons done acted ih =>
    rw [List.flatMap_cons, List.foldl_append]
    exact ih (h.act env done.1 done.2)

theorem WellFormed.takes {env : Env} (h : d.WellFormed) {cmds : List Cmd}
    (hfit : d.nextId + cmds.length < 2 ^ 64) : (cmds.foldl (take env) d).WellFormed := by
  have hcalls : cmds.foldl (take env) d =
      (cmds.map fun cmd => StoreCall.agent cmd.op).foldl (call env) d := by
    rw [List.foldl_map]
    rfl
  have hadds := adds_le_length env (cmds.map fun cmd => StoreCall.agent cmd.op) d
  rw [List.length_map] at hadds
  rw [hcalls]
  exact h.foldl (by omega)

end TodoStore

/-- An attempt that fails, if it does, before its request line has left. -/
structure Attempt.Clean (a : Attempt) : Prop where
  uncut : ∀ error, a.write 0 ≠ .cut error
  answered : a.write 0 = .complete → a.flush = .ok () ∧ ∃ resp, a.read 0 = .line resp

/-- An attempt that does not fail. -/
structure Attempt.Reliable (a : Attempt) : Prop extends a.Clean where
  connected : a.connect = .ok ()
  timeout : a.setTimeout = .ok ()
  written : a.write 0 = .complete

/-- A step after which no command is lost, made twice or made by somebody else. -/
def BridgeEvent.Quiet : BridgeEvent → Prop
  | .attempt a fate => a.Clean ∧ fate = .served
  | .typed _ | .act _ | .frame | .recv => True
  | .close | .expire | .late _ | .other _ => False

namespace BridgeSystem

variable {env : Env} (start : AgentClient) {s : BridgeSystem} {a : Attempt}

section Call

/-- A clean attempt is answered, or nothing of it is heard. -/
theorem roundtripWire_clean (h : a.Clean) (c : AgentClient) (id : Nat) (op : Op)
    (resp : Response) : ∃ c', c.roundtripWire id op (hearing a (some resp)) =
      (.ok resp, c', [⟨id, op, true⟩]) ∨
    ∃ err, c.roundtripWire id op (hearing a (some resp)) = (.error err, c', []) := by
  unfold AgentClient.roundtripWire
  cases if c.session then (hearing a (some resp)).setTimeout
    else (hearing a (some resp)).connect with
  | error err => exact ⟨_, Or.inr ⟨err, rfl⟩⟩
  | ok u =>
    dsimp only
    have hwrite : (hearing a (some resp)).write 0 = a.write 0 := rfl
    cases hout : a.write 0 with
    | unsent err =>
      have hwire : exchangeWire (hearing a (some resp)) id op = (.error err, []) := by
        rw [exchangeWire, hwrite, hout]
      rw [hwire]
      exact ⟨_, Or.inr ⟨err, rfl⟩⟩
    | cut err => exact absurd hout (h.uncut err)
    | complete =>
      obtain ⟨hflush, resp', hread⟩ := h.answered hout
      have hline : (hearing a (some resp)).read 0 = .line resp := by simp [hearing, hread]
      have hflush' : (hearing a (some resp)).flush = .ok () := hflush
      have hwire : exchangeWire (hearing a (some resp)) id op = (.ok resp, [⟨id, op, true⟩]) := by
        simp [exchangeWire, hwrite, hout, hline, hflush']
      rw [hwire]
      exact ⟨_, Or.inl rfl⟩

theorem roundtripWire_reliable (h : a.Reliable) (c : AgentClient) (id : Nat) (op : Op)
    (resp : Response) : ∃ c', c.roundtripWire id op (hearing a (some resp)) =
      (.ok resp, c', [⟨id, op, true⟩]) := by
  obtain ⟨hflush, resp', hread⟩ := h.answered h.written
  have hopen : (if c.session then (hearing a (some resp)).setTimeout
      else (hearing a (some resp)).connect) = .ok () := by
    cases c.session
    · exact h.connected
    · exact h.timeout
  have hwrite : (hearing a (some resp)).write 0 = .complete := h.written
  have hline : (hearing a (some resp)).read 0 = .line resp := by simp [hearing, hread]
  have hflush' : (hearing a (some resp)).flush = .ok () := hflush
  have hwire : exchangeWire (hearing a (some resp)) id op = (.ok resp, [⟨id, op, true⟩]) := by
    simp [exchangeWire, hwrite, hline, hflush']
  unfold AgentClient.roundtripWire
  rw [hopen]
  dsimp only
  rw [hwire]
  exact ⟨_, rfl⟩

/-- The end of a call, with what the window is told of it. -/
def noted (s : BridgeSystem) (note : BridgeNote) (daemon : TodoStore)
    (client : Option AgentClient) (phase : WorkerPhase) : BridgeSystem :=
  { s with
    daemon, client, phase
    notes := s.notes ++ [note]
    views := { s.views with queue := s.views.queue ++ note.view?.toList }
    sent := s.sent ++ note.view?.toList }

theorem report_of_receiver (h : s.views.receiver = true) (view : Except String TodoView)
    (next : BridgeSystem → BridgeSystem) : s.report view next =
      next { s with
        views := { s.views with queue := s.views.queue ++ [view] }
        sent := s.sent ++ [view] } := by
  rw [report, Channel.send_of_receiver h]

theorem startCall_ok (errand : Errand) : ∃ c id, s.startCall (.ok start) errand =
    .ok { s with client := some c, phase := .calling errand id "" } := by
  unfold startCall
  cases s.client <;> exact ⟨_, _, rfl⟩

theorem beginLook_ok : ∃ c id, s.beginLook (.ok start) =
    { s with client := some c, phase := .calling .look id "" } := by
  obtain ⟨c, id, hstart⟩ := @startCall_ok start s .look
  refine ⟨c, id, ?_⟩
  rw [beginLook, hstart]

theorem beginCommand_ok (cmd : Cmd) : ∃ c id, s.beginCommand (.ok start) cmd =
    { s with client := some c, phase := .calling (.command cmd) id "" } := by
  obtain ⟨c, id, hstart⟩ := @startCall_ok start s (.command cmd)
  refine ⟨c, id, ?_⟩
  rw [beginCommand, hstart]

theorem recv_command (hphase : s.phase = .polling) {cmd : Cmd} {queue : List Cmd}
    (hqueue : s.cmds.queue = cmd :: queue) : ∃ c id, s.recv (.ok start) = { s with
      cmds := { s.cmds with queue }
      client := some c
      phase := .calling (.command cmd) id "" } := by
  rw [recv, hphase]
  dsimp only
  rw [Channel.tryRecv, hqueue]
  exact beginCommand_ok start cmd

theorem recv_look (hphase : s.phase = .polling) (hqueue : s.cmds.queue = [])
    (hsender : s.cmds.sender = true) : ∃ c id, s.recv (.ok start) =
      { s with client := some c, phase := .calling .look id "" } := by
  rw [recv, hphase]
  dsimp only
  rw [Channel.tryRecv, hqueue]
  dsimp only
  rw [if_pos hsender]
  exact beginLook_ok start

/-- A command's call ends with a note of it, and the snapshot's call starts. -/
theorem endCommand_ok (h : s.views.receiver = true) (cmd : Cmd) (result : Except String Response) :
    ∃ c id, s.endCommand (.ok start) cmd result =
      s.noted (.called cmd result) s.daemon (some c) (.calling .look id "") := by
  have hend : ∃ client, s.endCommand (.ok start) cmd result =
      (s.noted (.called cmd result) s.daemon client s.phase).beginLook (.ok start) := by
    cases result with
    | ok resp =>
      refine ⟨s.client, ?_⟩
      rw [endCommand, noted, BridgeNote.view?_called_ok, Option.toList_none, List.append_nil,
        List.append_nil]
    | error err =>
      exact ⟨none, @report_of_receiver
        { s with client := none, notes := s.notes ++ [.called cmd (.error err)] } h _ _⟩
  obtain ⟨client, hend⟩ := hend
  obtain ⟨c, id, hlook⟩ :=
    @beginLook_ok start (s.noted (.called cmd result) s.daemon client s.phase)
  exact ⟨c, id, hend.trans hlook⟩

theorem endLook_ok (h : s.views.receiver = true) {resp : Response} {tree : UiTree}
    (htree : resp.tree = some tree) : s.endLook (.ok resp) =
      s.noted (.looked (.ok (TodoView.fromTree tree))) s.daemon s.client .polling := by
  rw [endLook, htree]
  exact @report_of_receiver
    { s with notes := s.notes ++ [.looked (.ok (TodoView.fromTree tree))] } h _ _

theorem deliver_served (id : Nat) (op : Op) : s.deliver env id op .served [⟨id, op, true⟩] =
    { s with daemon := (s.answer env id op).2 } := rfl

/-- Once the line of a command is answered, the daemon has taken it and the command is noted. -/
theorem attempt_command (h : s.views.receiver = true) {cmd : Cmd} {id : Nat} {lastErr : String}
    {c c' : AgentClient} (hphase : s.phase = .calling (.command cmd) id lastErr)
    (hclient : s.client = some c) (hwire : c.roundtripWire id (Errand.command cmd).op
      (hearing a (some (s.answer env id (Errand.command cmd).op).1)) =
        (.ok (s.answer env id (Errand.command cmd).op).1, c',
          [⟨id, (Errand.command cmd).op, true⟩])) :
    ∃ note c id', note.cmd? = some cmd ∧ s.attempt env (.ok start) a .served =
      s.noted note (s.daemon.take env cmd) (some c) (.calling .look id' "") := by
  obtain ⟨c'', id', hend⟩ := @endCommand_ok start
    { s with daemon := (s.answer env id (Errand.command cmd).op).2, client := some c' } h cmd
    (s.answer env id (Errand.command cmd).op).1.expectOk
  refine ⟨.called cmd (s.answer env id (Errand.command cmd).op).1.expectOk, c'', id', rfl, ?_⟩
  unfold attempt
  rw [hphase, hclient]
  dsimp only
  rw [reply, hwire, deliver_served]
  dsimp only
  rw [endCall, hend, answer_command]
  rfl

theorem attempt_look (h : s.views.receiver = true) {id : Nat} {lastErr : String}
    {c c' : AgentClient} (hphase : s.phase = .calling .look id lastErr)
    (hclient : s.client = some c) (hwire : c.roundtripWire id Errand.look.op
      (hearing a (some (s.answer env id Errand.look.op).1)) =
        (.ok (s.answer env id Errand.look.op).1, c', [⟨id, Errand.look.op, true⟩])) :
    s.attempt env (.ok start) a .served =
      s.noted (.looked (.ok (TodoView.fromTree s.daemon.tree))) s.daemon (some c') .polling := by
  obtain ⟨hkept, rev, htree⟩ := @answer_look env s id
  have hok : (s.answer env id Errand.look.op).1.expectOk =
      .ok (s.answer env id Errand.look.op).1 := rfl
  have hend := @endLook_ok
    { s with daemon := (s.answer env id Errand.look.op).2, client := some c' } h _ _ htree
  unfold attempt
  rw [hphase, hclient]
  dsimp only
  rw [reply, hwire, deliver_served]
  dsimp only
  rw [endCall, hok, hend, hkept]
  rfl

end Call

/-- What holds along a run in which no command is lost: the daemon has taken the commands that were
noted, and a worker that polls has just shown it to the window. -/
structure Settling (env : Env) (daemon : TodoStore) (s : BridgeSystem) : Prop where
  window : s.cmds.sender = true
  given : s.given = s.acted.flatMap fun done => done.2.commands done.1
  daemon : s.daemon = (s.notes.filterMap BridgeNote.cmd?).foldl (TodoStore.take env) daemon
  client : ∀ errand id lastErr, s.phase = .calling errand id lastErr → ∃ c, s.client = some c
  seen : s.phase = .polling →
    s.notes = [] ∨ s.sent.getLast? = some (.ok (TodoView.fromTree s.daemon.tree))
  last : (s.shown ++ s.views.queue).getLast? = s.sent.getLast?

variable {daemon : TodoStore}

/-- The worker and its channel to the window are there. -/
theorem Settling.ends (h : s.Settling env daemon) (hkept : s.Kept) :
    s.phase ≠ .exited ∧ s.cmds.receiver = true ∧ s.views.receiver = true ∧
      s.views.sender = true := by
  have hphase : s.phase ≠ .exited := by
    intro hexited
    have hgone := hkept.gone hexited
    rw [h.window] at hgone
    cases hgone
  have hlive := hkept.live hphase
  exact ⟨hphase, hlive.ends.1, hlive.window.trans h.window, hlive.ends.2⟩

/-- A call that goes on has shown nothing yet. -/
theorem Settling.call (h : s.Settling env daemon) (queue : List Cmd) (c : AgentClient)
    (errand : Errand) (id : Nat) (lastErr : String) : Settling env daemon { s with
      cmds := { s.cmds with queue }
      client := some c
      phase := .calling errand id lastErr } :=
  ⟨h.window, h.given, h.daemon, fun _ _ _ _ => ⟨c, rfl⟩, nofun, h.last⟩

theorem Settling.noted (h : s.Settling env daemon) {note : BridgeNote} {next : TodoStore}
    {c : AgentClient} {phase : WorkerPhase}
    (hnext : next = note.cmd?.toList.foldl (TodoStore.take env) s.daemon)
    (hseen : phase = .polling → note = .looked (.ok (TodoView.fromTree next.tree))) :
    Settling env daemon (s.noted note next (some c) phase) where
  window := h.window
  given := h.given
  daemon := by
    show next = ((s.notes ++ [note]).filterMap BridgeNote.cmd?).foldl (TodoStore.take env) daemon
    rw [List.filterMap_append, List.foldl_append, ← h.daemon, hnext]
    cases hcmd : note.cmd? <;> simp [hcmd]
  client := fun _ _ _ _ => ⟨c, rfl⟩
  seen hpolling := by
    right
    show (s.sent ++ note.view?.toList).getLast? = _
    rw [hseen hpolling]
    simp [BridgeSystem.noted]
  last := by
    show (s.shown ++ (s.views.queue ++ note.view?.toList)).getLast? =
      (s.sent ++ note.view?.toList).getLast?
    rw [← List.append_assoc, List.getLast?_append, h.last, List.getLast?_append]

theorem attempt_settling (h : s.Settling env daemon) (hkept : s.Kept) (ha : a.Clean) :
    Settling env daemon (s.attempt env (.ok start) a .served) := by
  obtain ⟨-, -, hreceiver, -⟩ := h.ends hkept
  cases hphase : s.phase with
  | polling =>
    rw [attempt, hphase]
    exact h
  | exited =>
    rw [attempt, hphase]
    exact h
  | calling errand id lastErr =>
    obtain ⟨c, hclient⟩ := h.client errand id lastErr hphase
    obtain ⟨c', hok | ⟨err, herr⟩⟩ :=
      roundtripWire_clean ha c id errand.op (s.answer env id errand.op).1
    · cases errand with
      | command cmd =>
        obtain ⟨note, c'', id', hnote, hdone⟩ :=
          attempt_command start hreceiver hphase hclient hok
        rw [hdone]
        refine h.noted ?_ nofun
        rw [hnote]
        rfl
      | look =>
        rw [attempt_look start hreceiver hphase hclient hok]
        exact h.noted rfl fun _ => rfl
    · unfold attempt
      rw [hphase, hclient]
      dsimp only
      rw [reply, herr]
      exact h.call s.cmds.queue c' errand id err

theorem recv_settling (h : s.Settling env daemon) : Settling env daemon (s.recv (.ok start)) := by
  cases hphase : s.phase with
  | calling errand id lastErr =>
    rw [recv, hphase]
    exact h
  | exited =>
    rw [recv, hphase]
    exact h
  | polling =>
    cases hqueue : s.cmds.queue with
    | cons cmd queue =>
      obtain ⟨c, id, hrecv⟩ := @recv_command start s hphase cmd queue hqueue
      rw [hrecv]
      exact h.call queue c (.command cmd) id ""
    | nil =>
      obtain ⟨c, id, hrecv⟩ := @recv_look start s hphase hqueue h.window
      rw [hrecv]
      exact h.call s.cmds.queue c .look id ""

theorem applyDaemon_settling (h : s.Settling env daemon) (hkept : s.Kept) :
    Settling env daemon s.applyDaemon := by
  obtain ⟨-, -, -, hsender⟩ := h.ends hkept
  unfold applyDaemon poll
  rcases s.views.drain_cases with ⟨hqueue, hdrain⟩ | ⟨hqueue, hdrain⟩
  · rw [hdrain, hsender, if_pos rfl]
    exact h
  · rw [hdrain]
    dsimp only
    have hlast : (s.shown ++ [s.views.queue.getLast hqueue] ++ []).getLast? = s.sent.getLast? := by
      rw [← h.last, List.append_nil, List.getLast?_append, List.getLast?_append,
        List.getLast?_eq_some_getLast hqueue]
      rfl
    generalize s.views.queue.getLast hqueue = last at hlast
    cases last with
    | ok view => exact ⟨h.window, h.given, h.daemon, h.client, h.seen, hlast⟩
    | error err => exact ⟨h.window, h.given, h.daemon, h.client, h.seen, hlast⟩

theorem act_settling (h : s.Settling env daemon) (hkept : s.Kept) (action : UserAction) :
    Settling env daemon (s.act action) := by
  obtain ⟨-, hreceiver, -, -⟩ := h.ends hkept
  unfold act
  dsimp only
  rw [Channel.sendAll_of_receiver hreceiver]
  refine ⟨h.window, ?_, h.daemon, h.client, h.seen, h.last⟩
  show s.given ++ _ = (s.acted ++ [_]).flatMap _
  rw [h.given, List.flatMap_append, List.flatMap_singleton]

theorem step_settling (h : s.Settling env daemon) (hkept : s.Kept) {e : BridgeEvent}
    (he : e.Quiet) : Settling env daemon (s.step env (.ok start) e) := by
  cases e with
  | typed text =>
    rw [step, if_pos h.window]
    exact ⟨h.window, h.given, h.daemon, h.client, h.seen, h.last⟩
  | act action =>
    rw [step, if_pos h.window]
    exact act_settling h hkept action
  | frame =>
    rw [step, if_pos h.window]
    exact applyDaemon_settling h hkept
  | recv => exact recv_settling start h
  | attempt a fate =>
    obtain ⟨ha, rfl⟩ := he
    exact attempt_settling start h hkept ha
  | close => cases he
  | expire => cases he
  | late i => cases he
  | other op => cases he

theorem steps_settling {events : List BridgeEvent} (hquiet : ∀ e ∈ events, e.Quiet) :
    ∀ {s : BridgeSystem}, s.Settling env daemon → s.Kept →
      (events.foldl (step env (.ok start)) s).Settling env daemon ∧
        (events.foldl (step env (.ok start)) s).Kept := by
  induction events with
  | nil => exact fun h hkept => ⟨h, hkept⟩
  | cons e events ih =>
    intro s h hkept
    obtain ⟨he, hevents⟩ := List.forall_mem_cons.mp hquiet
    exact ih hevents (step_settling start h hkept he) (step_kept hkept e)

theorem run_settling {proc : ProcessEnv} (hconnect : connectClient proc = .ok start)
    {events : List BridgeEvent} (hquiet : ∀ e ∈ events, e.Quiet) :
    Settling env daemon (run env proc daemon events) := by
  have hopened : Settling env daemon { daemon } := ⟨rfl, rfl, rfl, nofun, fun _ => Or.inl rfl, rfl⟩
  rw [run, hconnect]
  exact (steps_settling start hquiet hopened (@run_kept env proc daemon [])).1

section Rest

/-- The worker has shown what the daemon made of every command. -/
structure Resting (s : BridgeSystem) : Prop where
  polling : s.phase = .polling
  done : s.cmds.queue = []
  looked : s.notes ≠ []

/-- Rounds of the worker's loop, over connections that do not fail. -/
def rounds (a : Attempt) (n : Nat) : List BridgeEvent :=
  (List.replicate n [.recv, .attempt a .served, .attempt a .served]).flatten

theorem rounds_succ (n : Nat) : rounds a (n + 1) =
    [.recv, .attempt a .served, .attempt a .served] ++ rounds a n := by
  rw [rounds, List.replicate_succ, List.flatten_cons, rounds]

theorem rounds_quiet (ha : a.Clean) (n : Nat) : ∀ e ∈ rounds a n, e.Quiet := by
  induction n with
  | zero => exact fun _ h => absurd h List.not_mem_nil
  | succ n ih =>
    rw [rounds_succ, List.forall_mem_append]
    refine ⟨?_, ih⟩
    simp [BridgeEvent.Quiet, ha]

/-- A worker that polls makes no attempt. -/
theorem attempt_polling (hphase : s.phase = .polling) (fate : LineFate) :
    s.attempt env (.ok start) a fate = s := by
  rw [attempt, hphase]

/-- Two attempts end the calls of a round. -/
theorem attempts_poll (h : s.Settling env daemon) (hkept : s.Kept) (ha : a.Reliable)
    {errand : Errand} {id : Nat} {lastErr : String}
    (hphase : s.phase = .calling errand id lastErr) :
    ∃ t, (s.attempt env (.ok start) a .served).attempt env (.ok start) a .served = t ∧
      t.phase = .polling ∧ t.notes ≠ [] ∧ t.cmds = s.cmds ∧ t.acted = s.acted := by
  have hlook (u : BridgeSystem) (hu : u.Settling env daemon) (hkept : u.Kept) {id : Nat}
      {lastErr : String} (hphase : u.phase = .calling .look id lastErr) :
      ∃ c, u.attempt env (.ok start) a .served = u.noted
        (.looked (.ok (TodoView.fromTree u.daemon.tree))) u.daemon (some c) .polling := by
    obtain ⟨-, -, hreceiver, -⟩ := hu.ends hkept
    obtain ⟨c, hclient⟩ := hu.client .look id lastErr hphase
    obtain ⟨c', hwire⟩ := roundtripWire_reliable ha c id Errand.look.op
      (u.answer env id Errand.look.op).1
    exact ⟨c', attempt_look start hreceiver hphase hclient hwire⟩
  have hnoted (notes : List BridgeNote) (note : BridgeNote) : notes ++ [note] ≠ [] :=
    List.append_ne_nil_of_right_ne_nil _ (List.cons_ne_nil _ _)
  cases errand with
  | look =>
    obtain ⟨c, hone⟩ := hlook s h hkept hphase
    rw [hone, attempt_polling start rfl]
    exact ⟨_, rfl, rfl, hnoted s.notes _, rfl, rfl⟩
  | command cmd =>
    obtain ⟨-, -, hreceiver, -⟩ := h.ends hkept
    obtain ⟨c, hclient⟩ := h.client (.command cmd) id lastErr hphase
    obtain ⟨c', hwire⟩ := roundtripWire_reliable ha c id (Errand.command cmd).op
      (s.answer env id (Errand.command cmd).op).1
    obtain ⟨note, c'', id', -, hone⟩ :=
      attempt_command start hreceiver hphase hclient hwire
    have hnext : Settling env daemon (s.attempt env (.ok start) a .served) :=
      attempt_settling start h hkept ha.toClean
    have hnextKept : Kept (s.attempt env (.ok start) a .served) := attempt_kept hkept a .served
    rw [hone] at hnext hnextKept ⊢
    obtain ⟨c₂, htwo⟩ := hlook _ hnext hnextKept rfl
    rw [htwo]
    exact ⟨_, rfl, rfl, hnoted (s.notes ++ [note]) _, rfl, rfl⟩

/-- A round takes a command, or ends the round that was begun. -/
theorem round_polls (h : s.Settling env daemon) (hkept : s.Kept) (ha : a.Reliable) :
    ∃ t, [.recv, .attempt a .served, .attempt a .served].foldl (step env (.ok start)) s = t ∧
      t.phase = .polling ∧ t.notes ≠ [] ∧ t.acted = s.acted ∧
        t.cmds.queue = if s.phase = .polling then s.cmds.queue.tail else s.cmds.queue := by
  have hrecv := recv_settling start h
  have hrecvKept : Kept (s.recv (.ok start)) := recv_kept hkept
  have hround : [.recv, .attempt a .served, .attempt a .served].foldl (step env (.ok start)) s =
      ((s.recv (.ok start)).attempt env (.ok start) a .served).attempt env (.ok start) a .served :=
    rfl
  rw [hround]
  cases hphase : s.phase with
  | exited => exact absurd hphase (h.ends hkept).1
  | calling errand id lastErr =>
    have hsame : s.recv (.ok start) = s := by rw [recv, hphase]
    rw [hsame]
    obtain ⟨t, ht, hpolls, hnotes, hcmds, hacted⟩ :=
      attempts_poll start h hkept ha hphase
    exact ⟨t, ht, hpolls, hnotes, hacted, by rw [hcmds, if_neg nofun]⟩
  | polling =>
    rw [if_pos rfl]
    cases hqueue : s.cmds.queue with
    | cons cmd queue =>
      obtain ⟨c, id, hbegin⟩ := @recv_command start s hphase cmd queue hqueue
      rw [hbegin] at hrecv hrecvKept ⊢
      obtain ⟨t, ht, hpolls, hnotes, hcmds, hacted⟩ :=
        attempts_poll start hrecv hrecvKept ha rfl
      exact ⟨t, ht, hpolls, hnotes, hacted, by rw [hcmds, List.tail_cons]⟩
    | nil =>
      obtain ⟨c, id, hbegin⟩ := @recv_look start s hphase hqueue h.window
      rw [hbegin] at hrecv hrecvKept ⊢
      obtain ⟨t, ht, hpolls, hnotes, hcmds, hacted⟩ :=
        attempts_poll start hrecv hrecvKept ha rfl
      exact ⟨t, ht, hpolls, hnotes, hacted, by rw [hcmds]; exact hqueue⟩

theorem rounds_rest (ha : a.Reliable) (n : Nat) : ∀ {s : BridgeSystem}, s.Settling env daemon →
    s.Kept → s.phase = .polling → s.notes ≠ [] → s.cmds.queue.length ≤ n →
      ((rounds a n).foldl (step env (.ok start)) s).Resting ∧
        ((rounds a n).foldl (step env (.ok start)) s).acted = s.acted := by
  induction n with
  | zero =>
    intro s h hkept hphase hnotes hlen
    have hqueue : s.cmds.queue = [] := List.length_eq_zero_iff.mp (by omega)
    exact ⟨⟨hphase, hqueue, hnotes⟩, rfl⟩
  | succ n ih =>
    intro s h hkept hphase hnotes hlen
    obtain ⟨hnext, hnextKept⟩ := steps_settling start
      (rounds_quiet ha.toClean 1) h hkept
    obtain ⟨t, ht, hpolls, htnotes, hacted, hqueue⟩ := round_polls start h hkept ha
    rw [if_pos hphase] at hqueue
    have hone : (rounds a 1).foldl (step env (.ok start)) s = t := ht
    rw [hone] at hnext hnextKept
    have hshort : t.cmds.queue.length ≤ n := by
      rw [hqueue, List.length_tail]
      omega
    obtain ⟨hrest, hsame⟩ := ih hnext hnextKept hpolls htnotes hshort
    rw [rounds_succ, List.foldl_append, ht]
    exact ⟨hrest, hsame.trans hacted⟩

/-- A round for what the worker does now and one for each command that waits bring it to rest. -/
theorem comes_to_rest (h : s.Settling env daemon) (hkept : s.Kept) (ha : a.Reliable) :
    ((rounds a (s.cmds.queue.length + 1)).foldl (step env (.ok start)) s).Resting ∧
      ((rounds a (s.cmds.queue.length + 1)).foldl (step env (.ok start)) s).acted = s.acted := by
  obtain ⟨hnext, hnextKept⟩ := steps_settling start (rounds_quiet ha.toClean 1) h hkept
  obtain ⟨t, ht, hpolls, hnotes, hacted, hqueue⟩ := round_polls start h hkept ha
  have hone : (rounds a 1).foldl (step env (.ok start)) s = t := ht
  rw [hone] at hnext hnextKept
  have hshort : t.cmds.queue.length ≤ s.cmds.queue.length := by
    rw [hqueue]
    split_ifs
    · rw [List.length_tail]
      omega
    · exact le_rfl
  obtain ⟨hrest, hsame⟩ := rounds_rest start ha _ hnext hnextKept hpolls hnotes hshort
  rw [rounds_succ, List.foldl_append, ht]
  exact ⟨hrest, hsame.trans hacted⟩

/-- A frame takes all views that came and changes nothing of the worker and the daemon. -/
theorem applyDaemon_frame (hsender : s.views.sender = true) :
    s.applyDaemon.views.queue = [] ∧ s.applyDaemon.phase = s.phase ∧
      s.applyDaemon.notes = s.notes ∧ s.applyDaemon.daemon = s.daemon ∧
        s.applyDaemon.sent = s.sent := by
  unfold applyDaemon poll
  rcases s.views.drain_cases with ⟨hqueue, hdrain⟩ | ⟨hqueue, hdrain⟩
  · rw [hdrain, hsender, if_pos rfl]
    exact ⟨hqueue, rfl, rfl, rfl, rfl⟩
  · rw [hdrain]
    dsimp only
    cases s.views.queue.getLast hqueue with
    | ok view => exact ⟨rfl, rfl, rfl, rfl, rfl⟩
    | error err => exact ⟨rfl, rfl, rfl, rfl, rfl⟩

/-- At rest, the next frame shows what the page of the daemon shows. -/
theorem Resting.frame (hrest : s.Resting) (h : s.Settling env daemon) (hkept : s.Kept) :
    s.applyDaemon.app.view = TodoView.fromTree s.daemon.tree ∧
      s.applyDaemon.app.daemonError = none := by
  obtain ⟨-, -, -, hsender⟩ := h.ends hkept
  obtain ⟨hqueue, hphase, hnotes, hdaemon, hsent⟩ := applyDaemon_frame hsender
  have hnext := applyDaemon_settling h hkept
  have hscreen := (applyDaemon_kept hkept h.window).screen
  have hlast : s.applyDaemon.shown.getLast? = some (.ok (TodoView.fromTree s.daemon.tree)) := by
    have hboth := hnext.last
    rw [hqueue, List.append_nil] at hboth
    rw [hboth, hsent]
    exact (h.seen hrest.polling).resolve_left hrest.looked
  obtain ⟨shown, hshown⟩ := List.getLast?_eq_some_iff.mp hlast
  rw [hshown] at hscreen
  refine ⟨hscreen.1.trans ?_, hscreen.2.trans ?_⟩
  · simp [Except.toOption]
  · simp

end Rest

/-- A window that is a client of the daemon agrees with one that has a host of its own. As long as
no command is lost and nobody else uses the daemon, both draw the same once the worker is at rest
and a frame has passed, whatever the user did while it was not. And a round of its loop for each
command that waits, after the one it is in, brings the worker to rest. -/
theorem bridge_settles (env : Env) (proc : ProcessEnv) (start : AgentClient)
    (daemon own : TodoStore) (events : List BridgeEvent) (a : Attempt)
    (hconnect : connectClient proc = .ok start) (hwell : daemon.WellFormed)
    (halike : daemon.Alike own) (hquiet : ∀ e ∈ events, e.Quiet) (ha : a.Reliable)
    (hfit : daemon.nextId + (run env proc daemon events).given.length < 2 ^ 64) :
    ((run env proc daemon events).Resting →
      (run env proc daemon (events ++ [.frame])).app.daemonError = none ∧
        (run env proc daemon (events ++ [.frame])).app.view.screen =
          (own.afterActions (run env proc daemon events).acted).shownView.screen) ∧
    ∃ n ≤ (run env proc daemon events).given.length,
      (run env proc daemon (events ++ rounds a (n + 1))).Resting ∧
        (run env proc daemon (events ++ rounds a (n + 1))).acted =
          (run env proc daemon events).acted := by
  have h : (run env proc daemon events).Settling env daemon := run_settling start hconnect hquiet
  have hkept : (run env proc daemon events).Kept := run_kept proc daemon events
  have hphase := (h.ends hkept).1
  have hfifo := (hkept.live hphase).fifo
  have hafter (more : List BridgeEvent) : run env proc daemon (events ++ more) =
      more.foldl (step env (.ok start)) (run env proc daemon events) := by
    rw [run, run, List.foldl_append, hconnect]
  generalize run env proc daemon events = s at *
  constructor
  · intro hrest
    have hstep : step env (.ok start) s .frame = s.applyDaemon := if_pos h.window
    obtain ⟨hview, herr⟩ := hrest.frame h hkept
    rw [hafter, List.foldl_cons, List.foldl_nil, hstep]
    refine ⟨herr, ?_⟩
    have hdone : s.daemon = s.given.foldl (TodoStore.take env) daemon := by
      rw [h.daemon, hfifo, hrest.polling, hrest.done]
      simp [WorkerPhase.hand]
    have hshown : TodoView.fromTree s.daemon.tree = s.daemon.shownView := by
      rw [hdone]
      exact (hwell.takes hfit).fromTree_tree
    have hscreen := (halike.afterActions env s.acted).screen
    rw [← h.given, ← hdone] at hscreen
    rw [hview, hshown, hscreen]
  · have hle : s.cmds.queue.length ≤ s.given.length := by
      rw [hfifo, List.length_append]
      omega
    refine ⟨s.cmds.queue.length, hle, ?_⟩
    rw [hafter]
    exact comes_to_rest start h hkept ha

/-- An environment without settings of the agent. -/
def unsetProc : ProcessEnv where
  var _ := none
  parseAddr _ := .error "invalid socket address syntax"
  showAddr _ := "127.0.0.1:17421"
  debugAssertions := true

/-- A connection that works. -/
def steadyAttempt : Attempt where
  connect := .ok ()
  setTimeout := .ok ()
  write _ := .complete
  flush := .ok ()
  read _ := .line (.success "1")

theorem steadyAttempt_reliable : steadyAttempt.Reliable where
  uncut := nofun
  answered _ := ⟨rfl, _, rfl⟩
  connected := rfl
  timeout := rfl
  written := rfl

/-- A user types a title and adds it; the worker is about to set the daemon's draft. -/
def addedMilk : List BridgeEvent := [.typed "milk", .act .addFromInput, .recv]

theorem bridge_settles_addedMilk :
    ∃ n ≤ (run .bare unsetProc (.new .headless) addedMilk).given.length,
    (run .bare unsetProc (.new .headless) (addedMilk ++ rounds steadyAttempt (n + 1))).Resting ∧
      (run .bare unsetProc (.new .headless) (addedMilk ++ rounds steadyAttempt (n + 1))).acted =
        (run .bare unsetProc (.new .headless) addedMilk).acted := by
  refine (bridge_settles .bare unsetProc ⟨"127.0.0.1:17421", 1, false⟩ (.new .headless)
    (.new .desktop) addedMilk steadyAttempt rfl (TodoStore.new_wellFormed .headless)
    ⟨rfl, rfl, rfl, rfl, rfl⟩ ?_ steadyAttempt_reliable (by decide +kernel)).2
  simp [addedMilk, BridgeEvent.Quiet]

end BridgeSystem

end GpuiAgent
