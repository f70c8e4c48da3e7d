import GpuiAgent.Host.Mailbox
import Mathlib.Data.List.Basic

namespace GpuiAgent

/-- What an app's UI thread does with the requests it takes from its mailbox. A request is answered
at once or its reply is left to `finish`; `react` is everything else that changes the app. -/
structure UiThread (σ ι : Type) where
  serve : σ → MailboxRequest → Option Response × σ
  finish : σ → Option Response × σ
  react : σ → ι → σ

/-- A request that was handed to the app, with the app's state at that moment. -/
structure Served (σ : Type) where
  posted : MailboxRequest
  app : σ

/-- Connection threads, mailbox and UI thread together. A request's ticket is its place in
`requests`; `sent` are the messages on the reply channels and `answers` what `wait` returned. -/
structure MailboxServer (σ : Type) where
  app : σ
  requests : List Request := []
  mailbox : AgentMailbox := .new
  backlog : List MailboxRequest := []
  pending : Option MailboxRequest := none
  served : List (Served σ) := []
  sent : List (Nat × Response) := []
  rejected : List Nat := []
  answers : List (Nat × Except String Response) := []

/-- One step of one of the threads. -/
inductive MailboxEvent (ι : Type) where
  | push (request : Request)
  | wait (ticket : Nat) (expired : Bool)
  | take
  | serve
  | finish
  | react (input : ι)

namespace MailboxServer

variable {σ ι : Type}

def push (s : MailboxServer σ) (request : Request) : MailboxServer σ :=
  let ticket := s.requests.length
  let s := { s with requests := s.requests ++ [request] }
  match s.mailbox.push ⟨ticket, request⟩ with
  | (some full, mailbox) =>
    { s with mailbox, sent := s.sent ++ [(ticket, full)], rejected := s.rejected ++ [ticket] }
  | (none, mailbox) => { s with mailbox }

/-- The thread that posted `ticket` looks at its channel. -/
def wait (s : MailboxServer σ) (ticket : Nat) (expired : Bool) : MailboxServer σ :=
  if s.requests.length ≤ ticket ∨ (s.answers.lookup ticket).isSome then s
  else match AgentMailbox.recvTimeout (s.sent.lookup ticket) expired with
    | some answer => { s with answers := s.answers ++ [(ticket, answer)] }
    | none => s

def take (s : MailboxServer σ) : MailboxServer σ :=
  let (taken, mailbox) := s.mailbox.take
  { s with mailbox, backlog := s.backlog ++ taken }

/-- Put a reply, if there is one, on a request's channel. -/
def reply (s : MailboxServer σ) (posted : MailboxRequest) : Option Response → MailboxServer σ
  | some resp => { s with sent := s.sent ++ [(posted.ticket, resp)], pending := none }
  | none => { s with pending := some posted }

/-- The UI thread starts the next request, unless an earlier one still waits for its reply. -/
def serve (ui : UiThread σ ι) (s : MailboxServer σ) : MailboxServer σ :=
  match s.pending, s.backlog with
  | none, posted :: backlog =>
    let (resp, app) := ui.serve s.app posted
    reply { s with app, backlog, served := s.served ++ [⟨posted, s.app⟩] } posted resp
  | _, _ => s

def finish (ui : UiThread σ ι) (s : MailboxServer σ) : MailboxServer σ :=
  match s.pending with
  | some posted =>
    let (resp, app) := ui.finish s.app
    reply { s with app } posted resp
  | none => s

def step (ui : UiThread σ ι) (s : MailboxServer σ) : MailboxEvent ι → MailboxServer σ
  | .push request => s.push request
  | .wait ticket expired => s.wait ticket expired
  | .take => s.take
  | .serve => s.serve ui
  | .finish => s.finish ui
  | .react input => { s with app := ui.react s.app input }

def run (ui : UiThread σ ι) (s : MailboxServer σ) (events : List (MailboxEvent ι)) :
    MailboxServer σ :=
  events.foldl (step ui) s

/-- The requests that were not refused, in the order they were accepted: those already handed to
the app, then the UI thread's backlog, then the queue. -/
def accepted (s : MailboxServer σ) : List MailboxRequest :=
  s.served.map Served.posted ++ s.backlog ++ s.mailbox.inner

section Fields

variable (s : MailboxServer σ) (request : Request) (ticket : Nat) (expired : Bool)

/-- A push either queues the request or refuses it and leaves the queue as it was. -/
theorem push_cases :
    (s.mailbox.inner.length < MAX_MAILBOX_DEPTH ∧
      s.push request = { s with
        requests := s.requests ++ [request]
        mailbox := ⟨s.mailbox.inner ++ [⟨s.requests.length, request⟩]⟩ }) ∨
    (MAX_MAILBOX_DEPTH ≤ s.mailbox.inner.length ∧
      s.push request = { s with
        requests := s.requests ++ [request]
        sent := s.sent ++ [(s.requests.length, .err request.id MAILBOX_FULL)]
        rejected := s.rejected ++ [s.requests.length] }) := by
  by_cases full : MAX_MAILBOX_DEPTH ≤ s.mailbox.inner.length
  · exact .inr ⟨full, by simp [push, AgentMailbox.push, full]⟩
  · exact .inl ⟨by omega, by simp [push, AgentMailbox.push, full]⟩

theorem push_requests : (s.push request).requests = s.requests ++ [request] := by
  rcases s.push_cases request with ⟨_, h⟩ | ⟨_, h⟩ <;> rw [h]

/-- Waiting only records an answer, at most one for each ticket. -/
theorem wait_cases :
    s.wait ticket expired = s ∨
    ticket < s.requests.length ∧ s.answers.lookup ticket = none ∧
      ∃ answer, AgentMailbox.recvTimeout (s.sent.lookup ticket) expired = some answer ∧
        s.wait ticket expired = { s with answers := s.answers ++ [(ticket, answer)] } := by
  unfold wait
  split_ifs with skip
  · exact .inl rfl
  · simp only [not_or, not_le, Bool.not_eq_true, Option.isSome_eq_false_iff,
      Option.isNone_iff_eq_none] at skip
    split
    next answer received => exact .inr ⟨skip.1, skip.2, answer, received, rfl⟩
    next => exact .inl rfl

theorem take_eq :
    s.take = { s with mailbox := ⟨[]⟩, backlog := s.backlog ++ s.mailbox.inner } := rfl

variable (ui : UiThread σ ι)

/-- What serving does: nothing, or it moves the head of the backlog to the app. -/
theorem serve_cases :
    s.serve ui = s ∨
    ∃ posted backlog, s.pending = none ∧ s.backlog = posted :: backlog ∧
      s.serve ui = reply { s with
        app := (ui.serve s.app posted).2
        backlog
        served := s.served ++ [⟨posted, s.app⟩] } posted (ui.serve s.app posted).1 := by
  unfold serve
  split
  next posted backlog idle queued => exact .inr ⟨posted, backlog, idle, queued, rfl⟩
  next => exact .inl rfl

theorem finish_cases :
    s.finish ui = s ∨
    ∃ posted, s.pending = some posted ∧
      s.finish ui = reply { s with app := (ui.finish s.app).2 } posted (ui.finish s.app).1 := by
  unfold finish
  split
  next posted busy => exact .inr ⟨posted, busy, rfl⟩
  next => exact .inl rfl

end Fields

section Reply

variable (s : MailboxServer σ) (posted : MailboxRequest) (resp : Option Response)

@[simp] theorem reply_app : (s.reply posted resp).app = s.app := by cases resp <;> rfl
@[simp] theorem reply_requests : (s.reply posted resp).requests = s.requests := by
  cases resp <;> rfl
@[simp] theorem reply_mailbox : (s.reply posted resp).mailbox = s.mailbox := by cases resp <;> rfl
@[simp] theorem reply_backlog : (s.reply posted resp).backlog = s.backlog := by cases resp <;> rfl
@[simp] theorem reply_served : (s.reply posted resp).served = s.served := by cases resp <;> rfl
@[simp] theorem reply_sent :
    (s.reply posted resp).sent = s.sent ++ (resp.map fun r => (posted.ticket, r)).toList := by
  cases resp <;> simp [reply]
@[simp] theorem reply_rejected : (s.reply posted resp).rejected = s.rejected := by
  cases resp <;> rfl
@[simp] theorem reply_answers : (s.reply posted resp).answers = s.answers := by cases resp <;> rfl

end Reply

end MailboxServer

end GpuiAgent
