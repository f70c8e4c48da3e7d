import GpuiAgent.Framework.Indexed
import GpuiAgent.Server.Tickets

namespace GpuiAgent

open Framework

namespace MailboxServer

variable {σ ι : Type} {ui : UiThread σ ι}

/-- Where the messages on the channels come from: a full mailbox, or the app, which had the request
served and answered it at once or later. -/
structure Sourced (ui : UiThread σ ι) (s : MailboxServer σ) : Prop where
  sent : ∀ m ∈ s.sent, (m.1 ∈ s.rejected ∧ ∃ id, m.2 = .err id MAILBOX_FULL) ∨
    ∃ e ∈ s.served, e.posted.ticket = m.1 ∧
      ∀ resp, (ui.serve e.app e.posted).1 = some resp → m.2 = resp
  pending : ∀ p ∈ s.pending, ∃ e ∈ s.served, e.posted = p ∧ (ui.serve e.app e.posted).1 = none
  answers : ∀ a ∈ s.answers, ∀ resp, a.2 = .ok resp → (a.1, resp) ∈ s.sent

theorem Sourced.congr {s t : MailboxServer σ} (h : Sourced ui s) (sent : t.sent = s.sent)
    (rejected : ∀ k ∈ s.rejected, k ∈ t.rejected) (served : t.served = s.served)
    (pending : t.pending = s.pending)
    (answers : ∀ a ∈ t.answers, ∀ resp, a.2 = .ok resp → (a.1, resp) ∈ s.sent) : Sourced ui t where
  sent := by
    rw [sent, served]
    exact fun m hm => (h.sent m hm).imp_left fun hm => ⟨rejected _ hm.1, hm.2⟩
  pending := by
    rw [pending, served]
    exact h.pending
  answers := by
    rw [sent]
    exact answers

/-- A reply to a request that was served, at once or now. -/
theorem Sourced.reply {s : MailboxServer σ} {posted : MailboxRequest} {resp : Option Response}
    (sent : ∀ m ∈ s.sent, (m.1 ∈ s.rejected ∧ ∃ id, m.2 = .err id MAILBOX_FULL) ∨
      ∃ e ∈ s.served, e.posted.ticket = m.1 ∧
        ∀ resp, (ui.serve e.app e.posted).1 = some resp → m.2 = resp)
    (answers : ∀ a ∈ s.answers, ∀ resp, a.2 = .ok resp → (a.1, resp) ∈ s.sent)
    (served : ∃ e ∈ s.served, e.posted = posted ∧
      ((ui.serve e.app e.posted).1 = resp ∨ (ui.serve e.app e.posted).1 = none)) :
    Sourced ui (s.reply posted resp) := by
  obtain ⟨e, he, rfl, outcome⟩ := served
  cases resp with
  | none =>
    refine ⟨sent, fun p hp => ?_, answers⟩
    obtain rfl := Option.mem_some.mp hp
    exact ⟨e, he, rfl, outcome.elim id id⟩
  | some resp =>
    refine ⟨fun m hm => ?_, fun _ hp => absurd hp (by simp [MailboxServer.reply]), fun a ha r hr => ?_⟩
    · rcases List.mem_append.mp hm with hm | hm
      · exact sent m hm
      · obtain rfl := List.mem_singleton.mp hm
        refine .inr ⟨e, he, rfl, fun r hr => ?_⟩
        rcases outcome with outcome | outcome <;> rw [outcome] at hr
        · exact Option.some.inj hr
        · cases hr
    · exact List.mem_append_left _ (answers a ha r hr)

theorem Sourced.step {s : MailboxServer σ} (h : Sourced ui s) (e : MailboxEvent ι) :
    Sourced ui (s.step ui e) := by
  cases e with
  | push request =>
    rcases s.push_cases request with ⟨_, heq⟩ | ⟨_, heq⟩
    · rw [MailboxServer.step, heq]
      exact h.congr rfl (fun _ hk => hk) rfl rfl h.answers
    · rw [MailboxServer.step, heq]
      refine ⟨fun m hm => ?_, h.pending,
        fun a ha resp hr => List.mem_append_left _ (h.answers a ha resp hr)⟩
      rcases List.mem_append.mp hm with hm | hm
      · exact (h.sent m hm).imp_left fun hm => ⟨List.mem_append_left _ hm.1, hm.2⟩
      · obtain rfl := List.mem_singleton.mp hm
        exact .inl ⟨List.mem_append_right _ List.mem_cons_self, _, rfl⟩
  | wait ticket expired =>
    rcases s.wait_cases ticket expired with heq | ⟨_, _, answer, received, heq⟩
    · rwa [MailboxServer.step, heq]
    · rw [MailboxServer.step, heq]
      refine h.congr rfl (fun _ hk => hk) rfl rfl fun a ha resp hr => ?_
      rcases List.mem_append.mp ha with ha | ha
      · exact h.answers a ha resp hr
      · obtain rfl := List.mem_singleton.mp ha
        obtain rfl : answer = .ok resp := hr
        cases found : s.sent.lookup ticket with
        | some r =>
          obtain rfl : r = resp := by simpa [AgentMailbox.recvTimeout, found] using received
          exact mem_of_lookup found
        | none => simp [AgentMailbox.recvTimeout, found] at received
  | take => exact h.congr rfl (fun _ hk => hk) rfl rfl h.answers
  | serve =>
    rcases s.serve_cases ui with heq | ⟨posted, backlog, _, queued, heq⟩
    · rwa [MailboxServer.step, heq]
    · rw [MailboxServer.step, heq]
      refine Sourced.reply (fun m hm => ?_) h.answers
        ⟨⟨posted, s.app⟩, List.mem_append_right _ List.mem_cons_self, rfl, .inl rfl⟩
      refine (h.sent m hm).imp_right ?_
      rintro ⟨e, he, ticket, outcome⟩
      exact ⟨e, List.mem_append_left _ he, ticket, outcome⟩
  | finish =>
    rcases s.finish_cases ui with heq | ⟨posted, busy, heq⟩
    · rwa [MailboxServer.step, heq]
    · rw [MailboxServer.step, heq]
      obtain ⟨e, he, heq, outcome⟩ := h.pending posted busy
      exact Sourced.reply h.sent h.answers ⟨e, he, heq, .inr outcome⟩
  | react input => exact h.congr rfl (fun _ hk => hk) rfl rfl h.answers

theorem sourced_start (ui : UiThread σ ι) (app : σ) : Sourced ui { app } where
  sent := fun _ hm => absurd hm List.not_mem_nil
  pending := fun _ hp => absurd hp (by simp)
  answers := fun _ ha => absurd ha List.not_mem_nil

end MailboxServer

end GpuiAgent
