import GpuiAgent.Host.MailboxQueue
import GpuiAgent.Server.Mailbox
import GpuiAgent.Todo.ScrolledShot

namespace GpuiAgent

open Framework

namespace TodoApp

/-- The requests the app has started and not replied to. -/
def inHand (app : TodoApp) : List MailboxRequest :=
  (app.scrolledJob.map ScrolledShotJob.reply).toList ++
    (app.pendingKeybinding.map PendingKeybindingFire.posted).toList

variable (env : Env) (win : Window) (app : TodoApp)

/-- The requests that the loop over a backlog starts, each with the app at that moment. -/
def starts : List MailboxRequest → TodoApp → List (Served TodoApp)
  | [], _ => []
  | posted :: backlog, app =>
    let turn := app.serveOne env win posted
    ⟨posted, app⟩ :: if turn.stop then [] else starts backlog turn.app

/-- The requests that a frame starts. -/
def frameStarts (mailbox : AgentMailbox) : List (Served TodoApp) :=
  let app := { app with keybindingBacklog := app.keybindingBacklog ++ mailbox.inner }
  if app.scrolledJob.isSome || app.pendingKeybinding.isSome then []
  else starts env win app.keybindingBacklog app

/-- The reply of a deferred finish, to the keybinding that is pending. -/
def finishReplies : List (MailboxRequest × Response) :=
  match app.pendingKeybinding, (app.finishKeybindingFire win).1 with
  | some pending, some resp => [(pending.posted, resp)]
  | _, _ => []

end TodoApp

/-- The app behind its mailbox. `taken` are the requests taken so far, `started` those handed to one
of the ways to serve a request, with the app at that moment, and `replies` what was sent to whom. -/
structure AgentDrain where
  app : TodoApp
  capture : Option ScrolledCapture := none
  requests : List Request := []
  mailbox : AgentMailbox := .new
  taken : List MailboxRequest := []
  started : List (Served TodoApp) := []
  replies : List (MailboxRequest × Response) := []

/-- What happens next: a connection thread pushes, the window paints a frame, a deferred keybinding
finish runs, or a listener changes what the views show. -/
inductive DrainEvent where
  | push (request : Request)
  | frame (win : Window) (screen : Screen)
  | finish (win : Window)
  | listener (f : TodoUi → TodoUi)

namespace AgentDrain

variable (env : Env)

def push (s : AgentDrain) (request : Request) : AgentDrain :=
  { s with
    requests := s.requests ++ [request]
    mailbox := (s.mailbox.push ⟨s.requests.length, request⟩).2 }

/-- What this frame does to the capture that is going on, if one is. -/
def captureStep (s : AgentDrain) (screen : Screen) : Option CaptureStep :=
  match s.app.scrolledJob, s.capture with
  | some job, some capture => some (capture.advance env screen job)
  | _, _ => none

def frame (s : AgentDrain) (win : Window) (screen : Screen) : AgentDrain :=
  let captured := s.captureStep env screen
  let win := { win with captureTiles := fun _ => captured.bind CaptureStep.result? }
  let frame := s.app.applyAgent env win s.mailbox
  { s with
    app := frame.app
    capture := frame.app.scrolledJob.map fun _ => match captured with
      | some (.waiting capture _) => capture
      | _ => .start screen
    mailbox := frame.mailbox
    taken := s.taken ++ s.mailbox.inner
    started := s.started ++ s.app.frameStarts env win s.mailbox
    replies := s.replies ++ frame.replies }

def finish (s : AgentDrain) (win : Window) : AgentDrain :=
  { s with
    app := (s.app.finishKeybindingFire win).2
    replies := s.replies ++ s.app.finishReplies win }

def step (s : AgentDrain) : DrainEvent → AgentDrain
  | .push request => s.push request
  | .frame win screen => s.frame env win screen
  | .finish win => s.finish win
  | .listener f => { s with app := s.app.withUi (f s.app.toTodoUi) }

/-- The app before it has seen a request. -/
def start (ui : TodoUi) : AgentDrain := { app := { toTodoUi := ui } }

def run (ui : TodoUi) (events : List DrainEvent) : AgentDrain := events.foldl (step env) (start ui)

end AgentDrain

section Turn

namespace TodoApp

variable {env : Env} {win : Window} {app : TodoApp} {posted : MailboxRequest}

@[simp] theorem inHand_withUi (ui : TodoUi) : (app.withUi ui).inHand = app.inHand := rfl

/-- What a turn does with the request it starts: reply and go on, or keep it and end the loop. -/
inductive Handed (app : TodoApp) (posted : MailboxRequest) (turn : Turn) : Prop where
  | replied (resp : Response) (reply : turn.reply = some resp) (inHand : turn.app.inHand = app.inHand)
  | kept (reply : turn.reply = none) (inHand : turn.app.inHand = [posted]) (stop : turn.stop = true)

theorem startKeybindingFire_handed (idle : app.inHand = []) :
    Handed app posted (app.startKeybindingFire win posted) := by
  unfold startKeybindingFire
  dsimp only
  split
  · exact .replied _ rfl rfl
  · split_ifs
    · exact .replied _ rfl rfl
    · have hjob : (app.scrolledJob.map ScrolledShotJob.reply).toList = [] :=
        (List.append_eq_nil_iff.mp idle).1
      refine .kept rfl ?_ rfl
      simp only [inHand]
      rw [hjob]
      rfl

theorem startScrolledJob_handed (idle : app.inHand = []) (spec : ScreenshotSpec) :
    Handed app posted (app.startScrolledJob env win posted spec) := by
  unfold startScrolledJob
  split
  · exact .replied _ rfl rfl
  · have hkey : (app.pendingKeybinding.map PendingKeybindingFire.posted).toList = [] :=
      (List.append_eq_nil_iff.mp idle).2
    refine .kept rfl ?_ rfl
    simp only [inHand]
    rw [hkey]
    rfl

theorem serveOne_handed (idle : app.inHand = []) :
    Handed app posted (app.serveOne env win posted) := by
  have idle' : (app.withUi (app.prepare win)).inHand = [] := idle
  unfold serveOne
  dsimp only
  split
  · cases @startKeybindingFire_handed win _ posted idle' with
    | replied resp reply kept => exact .replied resp reply kept
    | kept reply kept stop => exact .kept reply kept stop
  · split_ifs
    · cases @startScrolledJob_handed env win _ posted idle' _ with
      | replied resp reply kept => exact .replied resp reply kept
      | kept reply kept stop => exact .kept reply kept stop
    · exact .replied _ rfl rfl
  · exact .replied _ rfl rfl
  · split_ifs
    · exact .replied _ rfl rfl
    · exact .replied _ rfl rfl

/-- What a frame does to the requests: it starts some, in order and only with none in hand, and
replies to the first of those it has. -/
structure Frame.Accounts (before waiting : List MailboxRequest) (started : List (Served TodoApp))
    (frame : Frame) : Prop where
  inHand : frame.replies.map Prod.fst ++ frame.app.inHand = before ++ started.map Served.posted
  waiting : started.map Served.posted ++ frame.app.keybindingBacklog = waiting
  idle : ∀ x ∈ started, x.app.inHand = []
  one : frame.app.inHand.length ≤ 1

/-- The loop, by induction on the backlog: a turn that keeps its request ends it. -/
theorem serveBacklog_accounts (mailbox : AgentMailbox) (backlog : List MailboxRequest) :
    ∀ {app : TodoApp}, app.inHand = [] →
      (serveBacklog env win mailbox backlog app).Accounts [] backlog (starts env win backlog app) := by
  induction backlog with
  | nil =>
    intro app idle
    have hhand : ({ app with keybindingBacklog := [] } : TodoApp).inHand = [] := idle
    exact ⟨by simp [serveBacklog, starts, hhand], rfl, by simp [starts], by simp [serveBacklog, hhand]⟩
  | cons posted backlog ih =>
    intro app idle
    cases @serveOne_handed env win app posted idle with
    | kept reply hand stop =>
      have hframe : serveBacklog env win mailbox (posted :: backlog) app =
          { app := { (app.serveOne env win posted).app with keybindingBacklog := backlog }
            mailbox, injected := (app.serveOne env win posted).injected } := by
        simp [serveBacklog, reply, stop]
      have hstarts : starts env win (posted :: backlog) app = [⟨posted, app⟩] := by
        simp [starts, stop]
      rw [hframe, hstarts]
      exact ⟨hand, rfl, by simpa using idle, hand ▸ le_rfl⟩
    | replied resp reply hand =>
      rw [idle] at hand
      by_cases stop : (app.serveOne env win posted).stop = true
      · have hframe : serveBacklog env win mailbox (posted :: backlog) app =
            { app := { (app.serveOne env win posted).app with keybindingBacklog := backlog }
              mailbox, replies := [(posted, resp)]
              injected := (app.serveOne env win posted).injected } := by
          simp [serveBacklog, reply, stop]
        have hstarts : starts env win (posted :: backlog) app = [⟨posted, app⟩] := by
          simp [starts, stop]
        have hkept : ({ (app.serveOne env win posted).app with keybindingBacklog := backlog } :
          TodoApp).inHand = [] := hand
        rw [hframe, hstarts]
        exact ⟨by simp [hkept], rfl, by simpa using idle, by simp [hkept]⟩
      · have rest := ih hand
        have hstarts : starts env win (posted :: backlog) app =
            ⟨posted, app⟩ :: starts env win backlog (app.serveOne env win posted).app := by
          simp [starts, stop]
        rw [serveBacklog, hstarts]
        simp only [reply, stop]
        refine ⟨?_, ?_, ?_, rest.one⟩
        · simpa using rest.inHand
        · simpa using rest.waiting
        · rintro x hx
          rcases List.mem_cons.mp hx with rfl | hx
          · exact idle
          · exact rest.idle x hx

theorem advanceScrolledJob_hand {job : ScrolledShotJob} (hjob : app.scrolledJob = some job) :
    (((app.advanceScrolledJob win).1.map fun resp => (job.reply, resp)).toList.map Prod.fst ++
        (app.advanceScrolledJob win).2.inHand = app.inHand) ∧
      (app.advanceScrolledJob win).2.keybindingBacklog = app.keybindingBacklog := by
  unfold advanceScrolledJob
  rw [hjob]
  dsimp only
  split
  · exact ⟨rfl, rfl⟩
  · refine ⟨?_, rfl⟩
    simp [inHand, hjob]

/-- A frame advances the job, waits for the pending keybinding, or runs the loop. -/
theorem applyAgent_accounts (mailbox : AgentMailbox) (one : app.inHand.length ≤ 1) :
    (app.applyAgent env win mailbox).Accounts app.inHand (app.keybindingBacklog ++ mailbox.inner)
        (app.frameStarts env win mailbox) := by
  obtain ⟨ui, pending, backlog, job, quit⟩ := app
  cases job with
  | some job =>
    obtain ⟨hand, kept⟩ := @advanceScrolledJob_hand win
      ⟨ui, pending, backlog ++ mailbox.inner, some job, quit⟩ job rfl
    refine ⟨?_, kept, fun _ hx => absurd hx List.not_mem_nil, ?_⟩
    · exact hand.trans (List.append_nil _).symm
    · have hlen := congrArg List.length hand
      rw [List.length_append] at hlen
      exact (Nat.le_add_left _ _).trans (hlen.trans_le one)
  | none =>
    cases pending with
    | some pending =>
      exact ⟨(List.append_nil _).symm, rfl, fun _ hx => absurd hx List.not_mem_nil, one⟩
    | none =>
      have h := @serveBacklog_accounts env win ⟨[]⟩ (backlog ++ mailbox.inner)
        ⟨ui, none, backlog ++ mailbox.inner, none, quit⟩ rfl
      exact h

theorem serveBacklog_mailbox (mailbox : AgentMailbox) (backlog : List MailboxRequest) :
    ∀ app : TodoApp, (serveBacklog env win mailbox backlog app).mailbox = mailbox := by
  induction backlog with
  | nil => exact fun _ => rfl
  | cons posted backlog ih =>
    intro app
    rw [serveBacklog]
    dsimp only
    split_ifs
    · rfl
    · exact ih _

theorem applyAgent_mailbox (app : TodoApp) (mailbox : AgentMailbox) :
    (app.applyAgent env win mailbox).mailbox = ⟨[]⟩ := by
  obtain ⟨ui, pending, backlog, job, quit⟩ := app
  cases job with
  | some job => rfl
  | none =>
    cases pending with
    | some pending => rfl
    | none => exact serveBacklog_mailbox _ _ _

/-- The deferred finish replies to the pending keybinding, the one request in hand. -/
theorem finishKeybindingFire_hand (one : app.inHand.length ≤ 1) :
    (app.finishReplies win).map Prod.fst ++ (app.finishKeybindingFire win).2.inHand = app.inHand ∧
    (app.finishKeybindingFire win).2.keybindingBacklog = app.keybindingBacklog ∧
    (app.finishKeybindingFire win).2.scrolledJob = app.scrolledJob := by
  obtain ⟨ui, pending, backlog, job, quit⟩ := app
  cases pending with
  | none => exact ⟨rfl, rfl, rfl⟩
  | some pending =>
    cases job with
    | some job => exact absurd one (by simp [inHand])
    | none => exact ⟨rfl, rfl, rfl⟩

end TodoApp

end Turn

namespace AgentDrain

variable {env : Env}

/-- What holds of the requests in every reachable state. -/
structure Accounted (s : AgentDrain) : Prop where
  taken : s.taken = s.replies.map Prod.fst ++ s.app.inHand ++ s.app.keybindingBacklog
  started : s.taken = s.started.map Served.posted ++ s.app.keybindingBacklog
  idle : ∀ x ∈ s.started, x.app.inHand = []
  one : s.app.inHand.length ≤ 1
  capturing : s.capture.isSome = s.app.scrolledJob.isSome

/-- A mailbox that went through the same pushes, takes and replies: the app holds the request it has in
hand, and behind it its backlog. -/
structure Simulates (s : AgentDrain) (q : MailboxQueue) : Prop where
  requests : q.requests = s.requests
  mailbox : q.mailbox = s.mailbox
  taken : q.takes.flatten = s.taken
  held : q.held = s.app.inHand ++ s.app.keybindingBacklog

section Step

variable {s t : AgentDrain}

/-- The app takes some requests, starts some and replies to some. -/
theorem Accounted.advance (h : Accounted s) {more : List MailboxRequest}
    {started : List (Served TodoApp)} {replies : List (MailboxRequest × Response)}
    (htaken : t.taken = s.taken ++ more) (hstarted : t.started = s.started ++ started)
    (hreplies : t.replies = s.replies ++ replies)
    (hand : replies.map Prod.fst ++ t.app.inHand = s.app.inHand ++ started.map Served.posted)
    (waiting : started.map Served.posted ++ t.app.keybindingBacklog =
      s.app.keybindingBacklog ++ more)
    (idle : ∀ x ∈ started, x.app.inHand = []) (one : t.app.inHand.length ≤ 1)
    (capturing : t.capture.isSome = t.app.scrolledJob.isSome) : Accounted t where
  taken := by
    rw [htaken, hreplies, List.map_append, h.taken, List.append_assoc _ _ more, ← waiting,
      List.append_assoc (s.replies.map Prod.fst), ← List.append_assoc s.app.inHand, ← hand]
    simp only [List.append_assoc]
  started := by
    rw [htaken, hstarted, List.map_append, h.started, List.append_assoc, ← waiting,
      List.append_assoc]
  idle := by
    rw [hstarted]
    exact List.forall_mem_append.mpr ⟨h.idle, idle⟩
  one := one
  capturing := capturing

theorem foldl_reply (replies : List (MailboxRequest × Response)) : ∀ {q : MailboxQueue}
    {rest : List MailboxRequest}, q.held = replies.map Prod.fst ++ rest →
    let q' := (replies.map fun r => QueueEvent.reply 0 r.2).foldl MailboxQueue.step q
    q'.requests = q.requests ∧ q'.mailbox = q.mailbox ∧ q'.takes = q.takes ∧ q'.held = rest := by
  induction replies with
  | nil => exact fun held => ⟨rfl, rfl, rfl, held⟩
  | cons r replies ih =>
    intro q rest held
    have hstep : q.step (.reply 0 r.2) =
        { q with held := replies.map Prod.fst ++ rest, sent := q.sent ++ [(r.1.ticket, r.2)] } := by
      simp [MailboxQueue.step, MailboxQueue.reply, held]
    have hrest := @ih (q.step (.reply 0 r.2)) rest (by rw [hstep])
    rw [hstep] at hrest
    rw [List.map_cons, List.foldl_cons, hstep]
    exact hrest

theorem Accounted.frame (h : Accounted s) (win : Window) (screen : Screen) :
    Accounted (s.frame env win screen) := by
  have hframe := @TodoApp.applyAgent_accounts env
    { win with captureTiles := fun _ => (s.captureStep env screen).bind CaptureStep.result? }
    s.app s.mailbox h.one
  refine h.advance rfl rfl rfl hframe.inHand hframe.waiting hframe.idle hframe.one ?_
  exact Option.isSome_map

theorem Accounted.finish (h : Accounted s) (win : Window) : Accounted (s.finish win) := by
  obtain ⟨hand, backlog, job⟩ := @TodoApp.finishKeybindingFire_hand win s.app h.one
  have hlen := congrArg List.length hand
  rw [List.length_append] at hlen
  refine h.advance (List.append_nil _).symm (List.append_nil _).symm rfl
    (hand.trans (List.append_nil _).symm) (backlog.trans (List.append_nil _).symm)
    (fun _ hx => absurd hx List.not_mem_nil) ?_ ?_
  · exact (Nat.le_add_left _ _).trans (hlen.trans_le h.one)
  · exact h.capturing.trans (congrArg Option.isSome job.symm)

theorem Accounted.step (h : Accounted s) (e : DrainEvent) : Accounted (s.step env e) := by
  cases e with
  | push request => exact ⟨h.taken, h.started, h.idle, h.one, h.capturing⟩
  | frame win screen => exact h.frame win screen
  | finish win => exact h.finish win
  | listener f => exact ⟨h.taken, h.started, h.idle, h.one, h.capturing⟩

section Queue

variable {q : MailboxQueue}

theorem Simulates.push (h : Simulates s q) (request : Request) :
    Simulates (s.push request) (q.push request) := by
  rcases q.push_cases request with ⟨room, hq⟩ | ⟨full, hq⟩
  · rw [h.mailbox] at room
    rw [hq]
    refine ⟨by simp [AgentDrain.push, h.requests], ?_, h.taken, h.held⟩
    simp [AgentDrain.push, AgentMailbox.push, Nat.not_le.mpr room, h.requests, h.mailbox]
  · rw [h.mailbox] at full
    rw [hq]
    refine ⟨by simp [AgentDrain.push, h.requests], ?_, h.taken, h.held⟩
    simp [AgentDrain.push, AgentMailbox.push, full, h.mailbox]

/-- Replies go to the oldest of the requests the app has. -/
theorem Simulates.replies (h : Simulates s q) {replies : List (MailboxRequest × Response)}
    (requests : t.requests = s.requests) (mailbox : t.mailbox = s.mailbox)
    (taken : t.taken = s.taken)
    (hand : replies.map Prod.fst ++ (t.app.inHand ++ t.app.keybindingBacklog) =
      s.app.inHand ++ s.app.keybindingBacklog) :
    Simulates t ((replies.map fun r => QueueEvent.reply 0 r.2).foldl MailboxQueue.step q) := by
  obtain ⟨hrequests, hmailbox, htakes, hheld⟩ := foldl_reply replies (h.held.trans hand.symm)
  exact ⟨hrequests.trans (h.requests.trans requests.symm),
    hmailbox.trans (h.mailbox.trans mailbox.symm), by rw [htakes, h.taken, taken], hheld⟩

theorem Simulates.frame (h : Simulates s q) (ha : Accounted s) (win : Window) (screen : Screen) :
    ∃ events : List QueueEvent, Simulates (s.frame env win screen)
      (events.foldl MailboxQueue.step q) := by
  have hframe := @TodoApp.applyAgent_accounts env
    { win with captureTiles := fun _ => (s.captureStep env screen).bind CaptureStep.result? }
    s.app s.mailbox ha.one
  -- the app between taking the requests and serving any
  have htake : Simulates { s with
      app := { s.app with keybindingBacklog := s.app.keybindingBacklog ++ s.mailbox.inner }
      mailbox := ⟨[]⟩
      taken := s.taken ++ s.mailbox.inner } q.take := by
    refine ⟨h.requests, rfl, ?_, ?_⟩
    · simp [MailboxQueue.take, AgentMailbox.take, h.taken, h.mailbox]
    · simp [MailboxQueue.take, AgentMailbox.take, h.held, h.mailbox, TodoApp.inHand]
  have hheld := congrArg (· ++ (s.frame env win screen).app.keybindingBacklog) hframe.inHand
  rw [List.append_assoc, List.append_assoc] at hheld
  have hwaiting := hheld.trans (congrArg (s.app.inHand ++ ·) hframe.waiting)
  have hmailbox := @TodoApp.applyAgent_mailbox env
    { win with captureTiles := fun _ => (s.captureStep env screen).bind CaptureStep.result? }
    s.app s.mailbox
  exact ⟨.take :: _, htake.replies rfl hmailbox rfl hwaiting⟩

theorem Simulates.step (h : Simulates s q) (ha : Accounted s) (e : DrainEvent) :
    ∃ events : List QueueEvent, Simulates (s.step env e) (events.foldl MailboxQueue.step q) := by
  cases e with
  | push request => exact ⟨[.push request], h.push request⟩
  | frame win screen => exact h.frame ha win screen
  | finish win =>
    obtain ⟨hand, backlog, _⟩ := @TodoApp.finishKeybindingFire_hand win s.app ha.one
    have hheld : (s.app.finishReplies win).map Prod.fst ++ ((s.app.finishKeybindingFire win).2.inHand ++
        (s.app.finishKeybindingFire win).2.keybindingBacklog) =
          s.app.inHand ++ s.app.keybindingBacklog := by
      rw [← List.append_assoc, hand, backlog]
    exact ⟨_, h.replies rfl rfl rfl hheld⟩
  | listener f => exact ⟨[], h.requests, h.mailbox, h.taken, h.held⟩

end Queue

end Step

theorem accounted_start (ui : TodoUi) : Accounted (start ui) :=
  ⟨rfl, rfl, fun _ hx => absurd hx List.not_mem_nil, Nat.zero_le _, rfl⟩

theorem run_concat (ui : TodoUi) (events : List DrainEvent) (e : DrainEvent) :
    run env ui (events ++ [e]) = (run env ui events).step env e := by
  simp [run, List.foldl_append]

theorem accounted_run (ui : TodoUi) (events : List DrainEvent) : Accounted (run env ui events) := by
  induction events using List.reverseRecOn with
  | nil => exact accounted_start ui
  | append_singleton events e ih =>
    rw [run_concat]
    exact ih.step e

/-- The app does to its mailbox what some run of the mailbox does. -/
theorem run_simulates (ui : TodoUi) (events : List DrainEvent) :
    ∃ moves, Simulates (run env ui events) (MailboxQueue.run moves) := by
  induction events using List.reverseRecOn with
  | nil => exact ⟨[], rfl, rfl, rfl, rfl⟩
  | append_singleton events e ih =>
    obtain ⟨moves, h⟩ := ih
    obtain ⟨more, hstep⟩ := h.step (accounted_run ui events) e
    refine ⟨moves ++ more, ?_⟩
    rw [MailboxQueue.run_append, run_concat]
    exact hstep

/-- In every run the requests taken come in the order of their pushes, and each is in one place: it was
replied to, once; it is the scrolled job's or the pending keybinding's; or it is in the backlog. They
are started in that order, each with no job and no keybinding in progress. -/
theorem drain_conserves (env : Env) (ui : TodoUi) (events : List DrainEvent) :
    let s := run env ui events
    (s.taken.Pairwise fun p q => p.ticket < q.ticket) ∧
      s.taken = s.replies.map Prod.fst ++ ((s.app.scrolledJob.map ScrolledShotJob.reply).toList ++
        (s.app.pendingKeybinding.map PendingKeybindingFire.posted).toList) ++
          s.app.keybindingBacklog ∧
      s.taken = s.started.map Served.posted ++ s.app.keybindingBacklog ∧
      ∀ x ∈ s.started, x.app.scrolledJob = none ∧ x.app.pendingKeybinding = none := by
  have h := @accounted_run env ui events
  obtain ⟨moves, hq⟩ := @run_simulates env ui events
  refine ⟨?_, h.taken, h.started, fun x hx => ?_⟩
  · have hordered := (MailboxQueue.accounted_run moves).ordered
    rw [MailboxQueue.accepted, hq.taken] at hordered
    exact (List.pairwise_append.mp hordered).1
  · obtain ⟨hjob, hkey⟩ := List.append_eq_nil_iff.mp (h.idle x hx)
    simpa using And.intro hjob hkey

end AgentDrain

end GpuiAgent
