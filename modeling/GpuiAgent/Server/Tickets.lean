import GpuiAgent.Framework.Indexed
import GpuiAgent.Framework.Issued
import GpuiAgent.Framework.Run
import GpuiAgent.Server.Mailbox

namespace GpuiAgent

open Framework

namespace MailboxServer

variable {σ ι : Type} {ui : UiThread σ ι}

/-- What holds of the tickets in every reachable state. -/
structure Ticketed (s : MailboxServer σ) : Prop where
  depth : s.mailbox.inner.length ≤ MAX_MAILBOX_DEPTH
  ordered : s.accepted.Pairwise fun p q => p.ticket < q.ticket
  posted : ∀ p ∈ s.accepted, s.requests[p.ticket]? = some p.request
  kept : ∀ p ∈ s.accepted, p.ticket ∉ s.rejected
  refused : ∀ ticket ∈ s.rejected, ticket < s.requests.length

theorem Ticketed.ticket_lt {s : MailboxServer σ} (h : Ticketed s) {p : MailboxRequest}
    (hp : p ∈ s.accepted) : p.ticket < s.requests.length :=
  (List.getElem?_eq_some_iff.mp (h.posted p hp)).1

theorem Ticketed.congr {s t : MailboxServer σ} (h : Ticketed s) (accepted : t.accepted = s.accepted)
    (requests : t.requests = s.requests) (rejected : t.rejected = s.rejected)
    (depth : t.mailbox.inner.length ≤ s.mailbox.inner.length) : Ticketed t where
  depth := depth.trans h.depth
  ordered := accepted ▸ h.ordered
  posted := by rw [accepted, requests]; exact h.posted
  kept := by rw [accepted, rejected]; exact h.kept
  refused := by rw [rejected, requests]; exact h.refused

theorem Ticketed.push {s : MailboxServer σ} (h : Ticketed s) (request : Request) :
    Ticketed (s.push request) := by
  have grown : ∀ p ∈ s.accepted, (s.requests ++ [request])[p.ticket]? = some p.request := by
    intro p hp
    rw [List.getElem?_append_left (h.ticket_lt hp)]
    exact h.posted p hp
  rcases s.push_cases request with ⟨room, heq⟩ | ⟨full, heq⟩
  · have accepted : (s.push request).accepted = s.accepted ++ [⟨s.requests.length, request⟩] := by
      rw [heq]
      simp [MailboxServer.accepted]
    have hrejected : (s.push request).rejected = s.rejected := by rw [heq]
    refine ⟨?_, ?_, ?_, ?_, ?_⟩
    · rw [heq]
      simp only [List.length_append, List.length_singleton]
      omega
    · rw [accepted, List.pairwise_append]
      refine ⟨h.ordered, List.pairwise_singleton _ _, fun p hp q hq => ?_⟩
      obtain rfl := List.mem_singleton.mp hq
      exact h.ticket_lt hp
    · rw [accepted, push_requests]
      intro p hp
      rcases List.mem_append.mp hp with hp | hp
      · exact grown p hp
      · obtain rfl := List.mem_singleton.mp hp
        simp
    · rw [accepted, hrejected]
      intro p hp
      rcases List.mem_append.mp hp with hp | hp
      · exact h.kept p hp
      · obtain rfl := List.mem_singleton.mp hp
        exact fun hmem => Nat.lt_irrefl _ (h.refused _ hmem)
    · rw [hrejected, push_requests]
      intro ticket hmem
      have := h.refused ticket hmem
      simp only [List.length_append, List.length_singleton]
      omega
  · have accepted : (s.push request).accepted = s.accepted := by rw [heq]; rfl
    have hrejected : (s.push request).rejected = s.rejected ++ [s.requests.length] := by rw [heq]
    refine ⟨?_, accepted ▸ h.ordered, ?_, ?_, ?_⟩
    · rw [heq]
      exact h.depth
    · rw [accepted, push_requests]
      exact grown
    · rw [accepted, hrejected]
      intro p hp hmem
      rcases List.mem_append.mp hmem with hmem | hmem
      · exact h.kept p hp hmem
      · exact (h.ticket_lt hp).ne (List.mem_singleton.mp hmem)
    · rw [hrejected, push_requests]
      intro ticket hmem
      simp only [List.length_append, List.length_singleton]
      rcases List.mem_append.mp hmem with hmem | hmem
      · have := h.refused ticket hmem
        omega
      · have := List.mem_singleton.mp hmem
        omega

theorem accepted_serve (ui : UiThread σ ι) (s : MailboxServer σ) :
    (s.serve ui).accepted = s.accepted := by
  rcases s.serve_cases ui with h | ⟨posted, backlog, _, queued, h⟩
  · rw [h]
  · rw [h]
    simp [accepted, queued]

theorem Ticketed.step {s : MailboxServer σ} (h : Ticketed s) (e : MailboxEvent ι) :
    Ticketed (s.step ui e) := by
  cases e with
  | push request => exact h.push request
  | wait ticket expired =>
    rcases s.wait_cases ticket expired with heq | ⟨_, _, _, _, heq⟩
    · rw [MailboxServer.step, heq]
      exact h
    · rw [MailboxServer.step, heq]
      exact h.congr rfl rfl rfl le_rfl
  | take =>
    refine h.congr ?_ rfl rfl (Nat.zero_le _)
    simp [MailboxServer.step, take_eq, accepted]
  | serve =>
    refine h.congr (accepted_serve ui s) ?_ ?_ ?_ <;>
      rcases s.serve_cases ui with heq | ⟨_, _, _, _, heq⟩ <;> simp [MailboxServer.step, heq]
  | finish =>
    rcases s.finish_cases ui with heq | ⟨_, _, heq⟩
    · rw [MailboxServer.step, heq]
      exact h
    · refine h.congr ?_ ?_ ?_ ?_ <;> simp [MailboxServer.step, heq, accepted]
  | react input => exact h.congr rfl rfl rfl le_rfl

theorem ticketed_start (app : σ) : Ticketed { app : MailboxServer σ } where
  depth := Nat.zero_le _
  ordered := List.Pairwise.nil
  posted := fun _ hp => absurd hp List.not_mem_nil
  kept := fun _ hp => absurd hp List.not_mem_nil
  refused := fun _ hp => absurd hp List.not_mem_nil

theorem Ticketed.run {s : MailboxServer σ} (h : Ticketed s) (events : List (MailboxEvent ι)) :
    Ticketed (s.run ui events) := by
  induction events generalizing s with
  | nil => exact h
  | cons e events ih => exact ih (h.step e)

/-- The requests the UI thread has still to start. -/
def queued (s : MailboxServer σ) : List MailboxRequest := s.backlog ++ s.mailbox.inner

theorem accepted_eq (s : MailboxServer σ) :
    s.accepted = s.served.map Served.posted ++ s.queued := List.append_assoc _ _ _

/-- How a state relates to any later one: nothing is forgotten, and what is accepted or refused later
has a later ticket. -/
structure Later (s t : MailboxServer σ) : Prop where
  accepted : ∃ new, t.accepted = s.accepted ++ new ∧ ∀ p ∈ new, s.requests.length ≤ p.ticket
  requests : s.requests <+: t.requests
  served : s.served <+: t.served
  sent : s.sent <+: t.sent
  rejected : ∃ new, t.rejected = s.rejected ++ new ∧ ∀ k ∈ new, s.requests.length ≤ k
  answers : s.answers <+: t.answers

theorem Later.of_accepted {s t : MailboxServer σ} (accepted : t.accepted = s.accepted)
    (requests : t.requests = s.requests) (rejected : t.rejected = s.rejected)
    (served : s.served <+: t.served) (sent : s.sent <+: t.sent)
    (answers : s.answers <+: t.answers) : Later s t where
  accepted := ⟨[], by rw [accepted, List.append_nil], fun _ hp => absurd hp List.not_mem_nil⟩
  requests := requests ▸ List.prefix_refl _
  served := served
  sent := sent
  rejected := ⟨[], by rw [rejected, List.append_nil], fun _ hk => absurd hk List.not_mem_nil⟩
  answers := answers

theorem Later.refl (s : MailboxServer σ) : Later s s :=
  .of_accepted rfl rfl rfl (List.prefix_refl _) (List.prefix_refl _) (List.prefix_refl _)

/-- Two additions of fresh tickets, one after the other. -/
theorem fresh_trans {α : Type} {a b c : List α} {n m : Nat} (ticket : α → Nat) (hle : n ≤ m)
    (h : ∃ new, b = a ++ new ∧ ∀ x ∈ new, n ≤ ticket x)
    (h' : ∃ new, c = b ++ new ∧ ∀ x ∈ new, m ≤ ticket x) :
    ∃ new, c = a ++ new ∧ ∀ x ∈ new, n ≤ ticket x := by
  obtain ⟨new₁, rfl, fresh₁⟩ := h
  obtain ⟨new₂, rfl, fresh₂⟩ := h'
  refine ⟨new₁ ++ new₂, List.append_assoc _ _ _, fun x hx => ?_⟩
  rcases List.mem_append.mp hx with hx | hx
  · exact fresh₁ x hx
  · exact hle.trans (fresh₂ x hx)

theorem Later.trans {s t u : MailboxServer σ} (h : Later s t) (h' : Later t u) : Later s u where
  accepted := fresh_trans MailboxRequest.ticket h.requests.length_le h.accepted h'.accepted
  requests := h.requests.trans h'.requests
  served := h.served.trans h'.served
  sent := h.sent.trans h'.sent
  rejected := fresh_trans id h.requests.length_le h.rejected h'.rejected
  answers := h.answers.trans h'.answers

theorem Later.getElem?_requests {s t : MailboxServer σ} (h : Later s t) {ticket : Nat}
    {request : Request} (hr : s.requests[ticket]? = some request) :
    t.requests[ticket]? = some request := getElem?_extend h.requests hr

/-- A ticket that was given out is refused at once or never. -/
theorem Later.not_mem_rejected {s t : MailboxServer σ} (h : Later s t) {ticket : Nat}
    (old : ticket < s.requests.length) (hk : ticket ∉ s.rejected) : ticket ∉ t.rejected := by
  obtain ⟨new, rejected, fresh⟩ := h.rejected
  rw [rejected]
  intro hmem
  rcases List.mem_append.mp hmem with hmem | hmem
  · exact hk hmem
  · exact Nat.not_lt.mpr (fresh ticket hmem) old

theorem later_step (ui : UiThread σ ι) (s : MailboxServer σ) (e : MailboxEvent ι) :
    Later s (s.step ui e) := by
  cases e with
  | push request =>
    rcases s.push_cases request with ⟨_, heq⟩ | ⟨_, heq⟩
    · have accepted : (s.push request).accepted = s.accepted ++ [⟨s.requests.length, request⟩] := by
        simp [heq, MailboxServer.accepted]
      refine ⟨⟨_, accepted, fun p hp => ?_⟩, ?_, ?_, ?_, ?_, ?_⟩
      · obtain rfl := List.mem_singleton.mp hp
        exact le_rfl
      all_goals simp [step, heq]
    · have rejected : (s.push request).rejected = s.rejected ++ [s.requests.length] := by rw [heq]
      refine ⟨⟨[], ?_, fun _ hp => absurd hp List.not_mem_nil⟩, ?_, ?_, ?_,
        ⟨_, rejected, fun k hk => (List.mem_singleton.mp hk).ge⟩, ?_⟩ <;>
        simp [step, heq, accepted]
  | wait ticket expired =>
    rcases s.wait_cases ticket expired with heq | ⟨_, _, answer, _, heq⟩
    · rw [step, heq]
      exact .refl s
    · rw [step, heq]
      exact .of_accepted rfl rfl rfl (List.prefix_refl _) (List.prefix_refl _)
        (List.prefix_append _ _)
  | take =>
    refine .of_accepted ?_ rfl rfl (List.prefix_refl _) (List.prefix_refl _) (List.prefix_refl _)
    simp [step, take_eq, accepted]
  | serve =>
    rcases s.serve_cases ui with heq | ⟨posted, backlog, _, queued, heq⟩
    · rw [step, heq]
      exact .refl s
    · refine .of_accepted (accepted_serve ui s) ?_ ?_ ?_ ?_ ?_
      all_goals simp [step, heq]
  | finish =>
    rcases s.finish_cases ui with heq | ⟨posted, _, heq⟩
    · rw [step, heq]
      exact .refl s
    · refine .of_accepted ?_ ?_ ?_ ?_ ?_ ?_
      · simp [step, heq, accepted]
      all_goals simp [step, heq]
  | react input =>
    exact .of_accepted rfl rfl rfl (List.prefix_refl _) (List.prefix_refl _) (List.prefix_refl _)

theorem later_run (ui : UiThread σ ι) (s : MailboxServer σ) (events : List (MailboxEvent ι)) :
    Later s (s.run ui events) := by
  induction events generalizing s with
  | nil => exact .refl s
  | cons e events ih => exact (later_step ui s e).trans (ih _)

theorem Ticketed.nodup {s : MailboxServer σ} (h : Ticketed s) : s.accepted.Nodup :=
  h.ordered.imp fun hlt heq => by
    rw [heq] at hlt
    exact Nat.lt_irrefl _ hlt

/-- A step serves at most one request, in the state it starts from. -/
theorem served_of_step (ui : UiThread σ ι) (s : MailboxServer σ) (e : MailboxEvent ι) :
    ∀ x ∈ (s.step ui e).served, x ∈ s.served ∨ x.app = s.app := by
  cases e with
  | push request =>
    rcases s.push_cases request with ⟨_, heq⟩ | ⟨_, heq⟩ <;>
      exact fun x hx => .inl (by simpa [step, heq] using hx)
  | wait ticket expired =>
    rcases s.wait_cases ticket expired with heq | ⟨_, _, _, _, heq⟩ <;>
      exact fun x hx => .inl (by simpa [step, heq] using hx)
  | take => exact fun x hx => .inl hx
  | serve =>
    intro x hx
    rcases s.serve_cases ui with heq | ⟨posted, backlog, _, _, heq⟩
    · exact .inl (by simpa [step, heq] using hx)
    · rw [step, heq, reply_served] at hx
      rcases List.mem_append.mp hx with hx | hx
      · exact .inl hx
      · obtain rfl := List.mem_singleton.mp hx
        exact .inr rfl
  | finish =>
    rcases s.finish_cases ui with heq | ⟨_, _, heq⟩ <;>
      exact fun x hx => .inl (by simpa [step, heq] using hx)
  | react input => exact fun x hx => .inl hx

/-- Requests in ticket order are served at most once each. -/
theorem countP_ticket_le_one {served : List (Served σ)}
    (h : (served.map Served.posted).Pairwise fun p q => p.ticket < q.ticket) (ticket : Nat) :
    (served.countP fun e => e.posted.ticket = ticket) ≤ 1 := by
  have nodup : (served.map fun e => e.posted.ticket).Nodup := by
    rw [List.pairwise_map] at h
    exact List.pairwise_map.mpr (h.imp Nat.ne_of_lt)
  rw [List.countP_eq_length_filter]
  exact length_filter_key_le nodup ticket

/-- Between two states of a run, a request posted by then is served exactly when it leaves the
queue. -/
theorem served_since {s : MailboxServer σ} (h : Ticketed s) (events : List (MailboxEvent ι))
    {posted : MailboxRequest} (old : posted.ticket < s.requests.length) :
    posted ∈ ((s.run ui events).served.drop s.served.length).map Served.posted ↔
      posted ∈ s.queued ∧ posted ∉ (s.run ui events).queued := by
  have later := later_run ui s events
  obtain ⟨new, accepted, fresh⟩ := later.accepted
  obtain ⟨since, served⟩ := later.served
  have after : Ticketed (s.run ui events) := h.run events
  have nodup := after.nodup
  have hnew : posted ∉ new := fun hmem => Nat.not_lt.mpr (fresh posted hmem) old
  rw [← served, List.drop_left]
  rw [accepted_eq, accepted_eq, ← served, List.map_append, List.append_assoc, List.append_assoc,
    List.append_cancel_left_eq] at accepted
  rw [accepted_eq, ← served, List.map_append, List.append_assoc, List.nodup_append] at nodup
  have apart := (List.nodup_append.mp nodup.2.1).2.2
  constructor
  · intro hmem
    have hsplit : posted ∈ s.queued ++ new := accepted ▸ List.mem_append_left _ hmem
    refine ⟨(List.mem_append.mp hsplit).resolve_right hnew, fun hq => ?_⟩
    exact apart posted hmem posted hq rfl
  · rintro ⟨hqueued, hleft⟩
    have hsplit : posted ∈ since.map Served.posted ++ (s.run ui events).queued :=
      accepted ▸ List.mem_append_left _ hqueued
    exact (List.mem_append.mp hsplit).resolve_right hleft

/-- A thread only waits for a ticket that was given out. -/
theorem answered_lt (s : MailboxServer σ) (h : ∀ a ∈ s.answers, a.1 < s.requests.length)
    (events : List (MailboxEvent ι)) :
    ∀ a ∈ (s.run ui events).answers, a.1 < (s.run ui events).requests.length := by
  induction events generalizing s with
  | nil => exact h
  | cons e events ih =>
    refine ih _ ?_
    cases e with
    | push request =>
      intro a ha
      rw [step, push_requests, List.length_append]
      have ha : a ∈ s.answers := by
        rcases s.push_cases request with ⟨_, heq⟩ | ⟨_, heq⟩ <;> simpa [step, heq] using ha
      exact Nat.lt_add_right _ (h a ha)
    | wait ticket expired =>
      rcases s.wait_cases ticket expired with heq | ⟨lt, _, answer, _, heq⟩
      · rwa [step, heq]
      · rw [step, heq]
        intro a ha
        rcases List.mem_append.mp ha with ha | ha
        · exact h a ha
        · obtain rfl := List.mem_singleton.mp ha
          exact lt
    | take => exact h
    | serve => rcases s.serve_cases ui with heq | ⟨_, _, _, _, heq⟩ <;> simpa [step, heq] using h
    | finish => rcases s.finish_cases ui with heq | ⟨_, _, heq⟩ <;> simpa [step, heq] using h
    | react input => exact h

end MailboxServer

end GpuiAgent
