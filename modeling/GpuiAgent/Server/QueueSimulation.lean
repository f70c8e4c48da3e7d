import GpuiAgent.Host.MailboxQueue
import GpuiAgent.Server.Mailbox

namespace GpuiAgent

open Framework

namespace MailboxServer

variable {σ ι : Type} (ui : UiThread σ ι)

/-- A server and a mailbox that went through the same pushes, takes and replies: the UI thread holds
the request it has pending, and behind it its backlog. -/
structure Simulates (s : MailboxServer σ) (q : MailboxQueue) : Prop where
  requests : q.requests = s.requests
  mailbox : q.mailbox = s.mailbox
  rejected : q.rejected = s.rejected
  sent : q.sent = s.sent
  taken : q.takes.flatten = s.served.map Served.posted ++ s.backlog
  held : q.held = s.pending.toList ++ s.backlog

theorem simulates_start (app : σ) : Simulates { app : MailboxServer σ } {} :=
  ⟨rfl, rfl, rfl, rfl, rfl, rfl⟩

variable {s : MailboxServer σ} {q : MailboxQueue}

theorem Simulates.push (h : Simulates s q) (request : Request) :
    Simulates (s.push request) (q.push request) := by
  rcases s.push_cases request with ⟨room, hs⟩ | ⟨full, hs⟩ <;>
    rcases q.push_cases request with ⟨room', hq⟩ | ⟨full', hq⟩
  · rw [hs, hq]
    refine ⟨?_, ?_, h.rejected, h.sent, h.taken, h.held⟩ <;> simp [h.requests, h.mailbox]
  · rw [h.mailbox] at full'
    exact absurd full' (Nat.not_le.mpr room)
  · rw [h.mailbox] at room'
    exact absurd full (Nat.not_le.mpr room')
  · rw [hs, hq]
    refine ⟨?_, h.mailbox, ?_, ?_, h.taken, h.held⟩ <;> simp [h.requests, h.rejected, h.sent]

theorem Simulates.take (h : Simulates s q) : Simulates s.take q.take := by
  refine ⟨h.requests, rfl, h.rejected, h.sent, ?_, ?_⟩
  · simp [MailboxQueue.take, MailboxServer.take, AgentMailbox.take, h.taken, h.mailbox]
  · simp [MailboxQueue.take, MailboxServer.take, AgentMailbox.take, h.held, h.mailbox]

/-- A reply to the request at the head of what the UI thread holds. -/
theorem Simulates.reply (h : Simulates s q) (app : σ) {backlog : List MailboxRequest}
    {served : List (Served σ)} {posted : MailboxRequest} (held : q.held = posted :: backlog)
    (taken : q.takes.flatten = served.map Served.posted ++ backlog) (resp : Option Response) :
    ∃ events : List QueueEvent, Simulates ({ s with app, backlog, served }.reply posted resp)
      (events.foldl MailboxQueue.step q) := by
  cases resp with
  | none =>
    refine ⟨[], h.requests, h.mailbox, h.rejected, h.sent, taken, ?_⟩
    simpa [MailboxServer.reply] using held
  | some resp =>
    have hq : q.step (.reply 0 resp) =
        { q with held := backlog, sent := q.sent ++ [(posted.ticket, resp)] } := by
      simp [MailboxQueue.step, MailboxQueue.reply, held]
    refine ⟨[.reply 0 resp], ?_⟩
    rw [List.foldl_cons, List.foldl_nil, hq]
    refine ⟨h.requests, h.mailbox, h.rejected, ?_, taken, rfl⟩
    simp [MailboxServer.reply, h.sent]

/-- Every step of the server is some steps of the mailbox. -/
theorem Simulates.step (h : Simulates s q) (e : MailboxEvent ι) :
    ∃ events : List QueueEvent, Simulates (s.step ui e) (events.foldl MailboxQueue.step q) := by
  cases e with
  | push request => exact ⟨[.push request], h.push request⟩
  | wait ticket expired =>
    refine ⟨[], ?_⟩
    rcases s.wait_cases ticket expired with heq | ⟨_, _, _, _, heq⟩ <;> rw [MailboxServer.step, heq]
    · exact h
    · exact ⟨h.requests, h.mailbox, h.rejected, h.sent, h.taken, h.held⟩
  | take => exact ⟨[.take], h.take⟩
  | serve =>
    rcases s.serve_cases ui with heq | ⟨posted, backlog, idle, queued, heq⟩ <;>
      rw [MailboxServer.step, heq]
    · exact ⟨[], h⟩
    · refine h.reply _ ?_ ?_ _
      · rw [h.held, idle, queued]
        rfl
      · rw [h.taken, queued, List.map_append, List.append_assoc]
        rfl
  | finish =>
    rcases s.finish_cases ui with heq | ⟨posted, busy, heq⟩ <;> rw [MailboxServer.step, heq]
    · exact ⟨[], h⟩
    · have held : q.held = posted :: s.backlog := by
        rw [h.held, busy]
        rfl
      exact h.reply (ui.finish s.app).2 held h.taken _
  | react input => exact ⟨[], h.requests, h.mailbox, h.rejected, h.sent, h.taken, h.held⟩

/-- Whatever the UI thread is, its server does to the mailbox what some run of the mailbox does. -/
theorem run_simulates (app : σ) (events : List (MailboxEvent ι)) :
    ∃ moves, Simulates (MailboxServer.run ui { app } events) (MailboxQueue.run moves) := by
  induction events using List.reverseRecOn with
  | nil => exact ⟨[], simulates_start app⟩
  | append_singleton events e ih =>
    obtain ⟨moves, h⟩ := ih
    obtain ⟨more, hstep⟩ := h.step ui e
    refine ⟨moves ++ more, ?_⟩
    rw [MailboxQueue.run_append, MailboxServer.run, List.foldl_append]
    exact hstep

/-- No request of a server gets two messages. -/
theorem nodup_sent (app : σ) (events : List (MailboxEvent ι)) :
    ((MailboxServer.run ui { app } events).sent.map Prod.fst).Nodup := by
  obtain ⟨moves, h⟩ := run_simulates ui app events
  rw [← h.sent]
  exact (MailboxQueue.accounted_run moves).nodup_sent

end MailboxServer

end GpuiAgent
