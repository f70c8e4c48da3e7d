import GpuiAgent.Todo.Desktop

namespace GpuiAgent

namespace MailboxServer

variable {σ ι : Type}

/-- What a transport error says about the request. One that the full mailbox refused never reaches
the app. One that timed out stays where it is: it reaches the app at most once, and after the
timeout exactly when it was still queued then and the UI thread takes it off the queue. -/
theorem served_of_transportError (ui : UiThread σ ι) (app : σ) (pre suf : List (MailboxEvent ι))
    (ticket : Nat) :
    let s := run ui { app } pre
    let t := s.run ui suf
    (ticket ∈ s.rejected → ∀ e ∈ t.served, e.posted.ticket ≠ ticket) ∧
    ((ticket, .error DRAIN_TIMED_OUT) ∈ s.answers →
      (t.served.countP fun e => e.posted.ticket = ticket) ≤ 1 ∧
      ∀ posted, posted.ticket = ticket →
        (posted ∈ (t.served.drop s.served.length).map Served.posted ↔
          posted ∈ s.queued ∧ posted ∉ t.queued)) := by
  intro s t
  have hs : Ticketed s := (ticketed_start app).run pre
  have ht : Ticketed t := hs.run suf
  have accepted : ∀ e ∈ t.served, e.posted ∈ t.accepted := fun e he => by
    rw [accepted_eq]
    exact List.mem_append_left _ (List.mem_map_of_mem he)
  refine ⟨fun refused e he heq => ?_, fun timedOut => ⟨?_, ?_⟩⟩
  · refine ht.kept _ (accepted e he) ?_
    obtain ⟨new, rejected, _⟩ := (later_run ui s suf).rejected
    rw [heq, rejected]
    exact List.mem_append_left _ refused
  · have served : (t.served.map Served.posted).Pairwise fun p q => p.ticket < q.ticket := by
      have ordered := ht.ordered
      rw [accepted_eq] at ordered
      exact (List.pairwise_append.mp ordered).1
    exact countP_ticket_le_one served ticket
  · rintro posted rfl
    have answered : ∀ a ∈ (MailboxServer.run ui { app } pre).answers,
        a.1 < (MailboxServer.run ui { app } pre).requests.length :=
      answered_lt { app } (fun _ ha => absurd ha List.not_mem_nil) pre
    exact served_since hs suf (answered _ timedOut)

/-- A request whose wait has timed out is applied once the UI thread drains the mailbox. -/
theorem served_of_transportError_late :
    let add := Op.invoke "todo.add" (.object [("title", .string "milk")])
    let start : MailboxServer Desktop := { app := ⟨{ store := .new .desktop }, .bare⟩ }
    let s := start.run (Desktop.uiThread .bare) [.push (.new "1" add), .wait 0 true]
    let t := s.run (Desktop.uiThread .bare) [.take, .serve]
    (0, .error DRAIN_TIMED_OUT) ∈ s.answers ∧ s.served.length = 0 ∧
      t.served.map (fun e => (e.posted.ticket, e.posted.request.op)) = [(0, add)] ∧
      t.app.app.store.items.map Todo.title = ["milk"] := by
  intro add start s t
  have timedOut : s.answers = [(0, .error DRAIN_TIMED_OUT)] := rfl
  refine ⟨timedOut ▸ List.mem_singleton_self _, rfl, ?_, ?_⟩ <;> decide +kernel

end MailboxServer

end GpuiAgent
