import GpuiAgent.Framework.Issued
import GpuiAgent.Host.Mailbox
import Mathlib.Algebra.Order.Group.Multiset
import Mathlib.Data.List.Infix

namespace GpuiAgent

open Framework

/-- The mailbox among its threads. A request's ticket is its place in `requests`, the order in which
the pushes got the lock. `takes` is what each take returned; of that, `held` is what its taker has
neither replied to nor dropped. `sent` are the messages on the reply channels. -/
structure MailboxQueue where
  requests : List Request := []
  mailbox : AgentMailbox := .new
  rejected : List Nat := []
  takes : List (List MailboxRequest) := []
  held : List MailboxRequest := []
  sent : List (Nat × Response) := []

/-- What one of the threads does next. A push is by any connection thread; `reply` and `drop` consume
one of the held requests. -/
inductive QueueEvent where
  | push (request : Request)
  | take
  | reply (i : Nat) (response : Response)
  | drop (i : Nat)

namespace MailboxQueue

def push (s : MailboxQueue) (request : Request) : MailboxQueue :=
  let ticket := s.requests.length
  let s := { s with requests := s.requests ++ [request] }
  match s.mailbox.push ⟨ticket, request⟩ with
  | (some full, mailbox) =>
    { s with mailbox, sent := s.sent ++ [(ticket, full)], rejected := s.rejected ++ [ticket] }
  | (none, mailbox) => { s with mailbox }

def take (s : MailboxQueue) : MailboxQueue :=
  let (taken, mailbox) := s.mailbox.take
  { s with mailbox, takes := s.takes ++ [taken], held := s.held ++ taken }

def reply (s : MailboxQueue) (i : Nat) (response : Response) : MailboxQueue := match s.held[i]? with
  | some posted =>
    { s with held := s.held.eraseIdx i, sent := s.sent ++ [(posted.ticket, response)] }
  | none => s

def drop (s : MailboxQueue) (i : Nat) : MailboxQueue := { s with held := s.held.eraseIdx i }

def step (s : MailboxQueue) : QueueEvent → MailboxQueue
  | .push request => s.push request
  | .take => s.take
  | .reply i response => s.reply i response
  | .drop i => s.drop i

def run (events : List QueueEvent) : MailboxQueue := events.foldl step {}

/-- The requests that were not refused, in the order of their pushes: those taken, then the queue. -/
def accepted (s : MailboxQueue) : List MailboxRequest := s.takes.flatten ++ s.mailbox.inner

/-- The messages on a request's channel. -/
def messages (s : MailboxQueue) (ticket : Nat) : List Response :=
  (s.sent.filter fun m => m.1 = ticket).map Prod.snd

theorem push_cases (s : MailboxQueue) (request : Request) :
    (s.mailbox.inner.length < MAX_MAILBOX_DEPTH ∧
      s.push request = { s with
        requests := s.requests ++ [request]
        mailbox := ⟨s.mailbox.inner ++ [⟨s.requests.length, request⟩]⟩ }) ∨
    (MAX_MAILBOX_DEPTH ≤ s.mailbox.inner.length ∧
      s.push request = { s with
        requests := s.requests ++ [request]
        sent := s.sent ++ [(s.requests.length, .err request.id MAILBOX_FULL)]
        rejected := s.rejected ++ [s.requests.length] }) := by
  by_cases full : MAX_MAILBOX_DEPTH ≤ s.mailbox.inner.length
  · exact .inr ⟨full, by simp [push, AgentMailbox.push, full]⟩
  · exact .inl ⟨by omega, by simp [push, AgentMailbox.push, full]⟩

/-- What holds of the tickets in every reachable state. A channel gets a message only for a refused
request or a taken one that is no longer held. -/
structure Accounted (s : MailboxQueue) : Prop where
  depth : s.mailbox.inner.length ≤ MAX_MAILBOX_DEPTH
  issued : Issued s.requests.length (s.accepted.map MailboxRequest.ticket) s.rejected
  owed : (↑(s.sent.map Prod.fst) + ↑(s.held.map MailboxRequest.ticket) : Multiset Nat) ≤
    ↑s.rejected + ↑(s.takes.flatten.map MailboxRequest.ticket)

theorem accounted_start : Accounted {} where
  depth := Nat.zero_le _
  issued := .start
  owed := le_rfl

section Step

variable {s : MailboxQueue}

theorem Accounted.push (h : Accounted s) (request : Request) : Accounted (s.push request) := by
  rcases s.push_cases request with ⟨room, heq⟩ | ⟨full, heq⟩
  · have haccepted : (s.push request).accepted = s.accepted ++ [⟨s.requests.length, request⟩] := by
      simp [heq, accepted]
    have issued := h.issued.keep
    refine ⟨?_, ?_, ?_⟩
    · rw [heq, List.length_append]
      exact room
    · rw [haccepted, heq, List.length_append, List.map_append]
      exact issued
    · rw [heq]
      exact h.owed
  · have haccepted : (s.push request).accepted = s.accepted := by simp [heq, accepted]
    have issued := h.issued.refuse
    refine ⟨?_, ?_, ?_⟩
    · rw [heq]
      exact h.depth
    · rw [haccepted, heq, List.length_append]
      exact issued
    · rw [heq, List.map_append, ← Multiset.coe_add, ← Multiset.coe_add, add_right_comm,
        add_right_comm (s.rejected : Multiset Nat)]
      exact add_le_add_left h.owed _

theorem accepted_take (s : MailboxQueue) : s.take.accepted = s.accepted := by
  simp [take, AgentMailbox.take, accepted]

theorem Accounted.take (h : Accounted s) : Accounted s.take where
  depth := Nat.zero_le _
  issued := by
    rw [accepted_take]
    exact h.issued
  owed := by
    have htakes : s.take.takes.flatten = s.takes.flatten ++ s.mailbox.inner := by
      simp [MailboxQueue.take, AgentMailbox.take]
    have hheld : s.take.held = s.held ++ s.mailbox.inner := rfl
    rw [htakes, hheld, List.map_append, List.map_append, ← Multiset.coe_add, ← Multiset.coe_add,
      ← add_assoc, ← add_assoc]
    exact add_le_add_left h.owed _

/-- What replying does: nothing, or it moves a held request's ticket to the channels. -/
theorem reply_cases (s : MailboxQueue) (i : Nat) (response : Response) :
    s.reply i response = s ∨ ∃ posted, s.held.Perm (posted :: s.held.eraseIdx i) ∧
      s.reply i response = { s with
        held := s.held.eraseIdx i, sent := s.sent ++ [(posted.ticket, response)] } := by
  unfold reply
  split
  · next posted hi =>
    obtain ⟨hlt, rfl⟩ := List.getElem?_eq_some_iff.mp hi
    exact .inr ⟨_, (List.getElem_cons_eraseIdx_perm hlt).symm, rfl⟩
  · exact .inl rfl

theorem Accounted.reply (h : Accounted s) (i : Nat) (response : Response) :
    Accounted (s.reply i response) := by
  rcases s.reply_cases i response with heq | ⟨posted, hheld, heq⟩
  · rw [heq]
    exact h
  · rw [heq]
    refine ⟨h.depth, h.issued, ?_⟩
    have howed := h.owed
    rw [Multiset.coe_eq_coe.mpr (hheld.map MailboxRequest.ticket)] at howed
    rw [List.map_append, ← Multiset.coe_add, add_assoc]
    exact howed

theorem Accounted.drop (h : Accounted s) (i : Nat) : Accounted (s.drop i) where
  depth := h.depth
  issued := h.issued
  owed := by
    have hle : (↑((s.held.eraseIdx i).map MailboxRequest.ticket) : Multiset Nat) ≤
        ↑(s.held.map MailboxRequest.ticket) :=
      Multiset.coe_le.mpr ((List.eraseIdx_sublist s.held i).map _).subperm
    exact (add_le_add_right hle _).trans h.owed

theorem Accounted.step (h : Accounted s) (e : QueueEvent) : Accounted (s.step e) := by
  cases e with
  | push request => exact h.push request
  | take => exact h.take
  | reply i response => exact h.reply i response
  | drop i => exact h.drop i

end Step

theorem Accounted.foldl (events : List QueueEvent) : ∀ {s : MailboxQueue}, Accounted s →
    Accounted (events.foldl MailboxQueue.step s) := by
  induction events with
  | nil => exact id
  | cons e events ih => exact fun h => ih (h.step e)

theorem accounted_run (events : List QueueEvent) : Accounted (run events) :=
  accounted_start.foldl events

/-- Nothing that was accepted, taken or sent is forgotten. -/
structure Later (s t : MailboxQueue) : Prop where
  accepted : s.accepted <+: t.accepted
  rejected : s.rejected <+: t.rejected
  takes : s.takes <+: t.takes
  sent : s.sent <+: t.sent

theorem Later.refl (s : MailboxQueue) : Later s s :=
  ⟨List.prefix_refl _, List.prefix_refl _, List.prefix_refl _, List.prefix_refl _⟩

theorem Later.trans {s t u : MailboxQueue} (h : Later s t) (h' : Later t u) : Later s u :=
  ⟨h.accepted.trans h'.accepted, h.rejected.trans h'.rejected, h.takes.trans h'.takes,
    h.sent.trans h'.sent⟩

theorem later_step (s : MailboxQueue) (e : QueueEvent) : Later s (s.step e) := by
  cases e with
  | push request =>
    rcases s.push_cases request with ⟨_, heq⟩ | ⟨_, heq⟩ <;> rw [step, heq]
    · refine ⟨?_, List.prefix_refl _, List.prefix_refl _, List.prefix_refl _⟩
      simp [accepted]
    · exact ⟨List.prefix_refl _, List.prefix_append _ _, List.prefix_refl _, List.prefix_append _ _⟩
  | take =>
    refine ⟨?_, List.prefix_refl _, List.prefix_append _ _, List.prefix_refl _⟩
    rw [step, accepted_take]
  | reply i response =>
    rcases s.reply_cases i response with heq | ⟨_, _, heq⟩ <;> rw [step, heq]
    · exact .refl s
    · exact ⟨List.prefix_refl _, List.prefix_refl _, List.prefix_refl _, List.prefix_append _ _⟩
  | drop i => exact ⟨List.prefix_refl _, List.prefix_refl _, List.prefix_refl _, List.prefix_refl _⟩

theorem later_foldl (events : List QueueEvent) : ∀ s : MailboxQueue,
    Later s (events.foldl step s) := by
  induction events with
  | nil => exact .refl
  | cons e events ih => exact fun s => (later_step s e).trans (ih _)

theorem run_append (pre suf : List QueueEvent) : run (pre ++ suf) = suf.foldl step (run pre) :=
  List.foldl_append

section Tickets

variable {s : MailboxQueue}

theorem Accounted.nodup (h : Accounted s) : (s.accepted.map MailboxRequest.ticket).Nodup :=
  (List.nodup_append.mp h.issued.nodup).1

theorem Accounted.ordered (h : Accounted s) :
    s.accepted.Pairwise fun p q => p.ticket < q.ticket :=
  List.pairwise_map.mp h.issued.ordered

/-- No channel gets two messages. -/
theorem Accounted.nodup_sent (h : Accounted s) : (s.sent.map Prod.fst).Nodup := by
  have hsub : (s.rejected ++ s.takes.flatten.map MailboxRequest.ticket).Nodup := by
    have hall := List.perm_append_comm.nodup_iff.mp h.issued.nodup
    rw [accepted, List.map_append, ← List.append_assoc] at hall
    exact (List.nodup_append.mp hall).1
  have howed := Multiset.nodup_of_le h.owed (Multiset.coe_nodup.mpr hsub)
  exact (List.nodup_append.mp (Multiset.coe_nodup.mp howed)).1

theorem Accounted.length_messages_le (h : Accounted s) (ticket : Nat) :
    (s.messages ticket).length ≤ 1 := by
  rw [messages, List.length_map]
  exact length_filter_key_le h.nodup_sent ticket

theorem Accounted.messages_eq (h : Accounted s) {ticket : Nat} {response : Response}
    (hsent : (ticket, response) ∈ s.sent) : s.messages ticket = [response] := by
  rw [messages, filter_key_eq h.nodup_sent hsent]
  rfl

/-- Before a request is taken its channel is empty, unless it was refused. -/
theorem Accounted.messages_eq_nil (h : Accounted s) {ticket : Nat} (hr : ticket ∉ s.rejected)
    (ht : ∀ p ∈ s.takes.flatten, p.ticket ≠ ticket) : s.messages ticket = [] := by
  rw [messages, List.map_eq_nil_iff, List.filter_eq_nil_iff]
  intro m hm he
  have hmem : ticket ∈ (↑s.rejected + ↑(s.takes.flatten.map MailboxRequest.ticket) : Multiset Nat) := by
    refine Multiset.mem_of_le h.owed (Multiset.mem_add.mpr (Or.inl ?_))
    rw [← of_decide_eq_true he]
    exact List.mem_map_of_mem hm
  rcases Multiset.mem_add.mp hmem with hmem | hmem
  · exact hr hmem
  · obtain ⟨p, hp, he⟩ := List.mem_map.mp hmem
    exact ht p hp he

end Tickets

section Push

variable {pre suf : List QueueEvent} {request : Request}

theorem run_push : run (pre ++ .push request :: suf) = suf.foldl step ((run pre).push request) :=
  run_append pre (.push request :: suf)

/-- A push that finds the queue full is answered at once and its request is never taken. -/
theorem push_refused (full : MAX_MAILBOX_DEPTH ≤ (run pre).mailbox.inner.length) :
    (run (pre ++ [.push request])).sent =
        (run pre).sent ++ [((run pre).requests.length, .err request.id MAILBOX_FULL)] ∧
      (run (pre ++ .push request :: suf)).messages (run pre).requests.length =
        [.err request.id MAILBOX_FULL] ∧
      ∀ p ∈ (run (pre ++ .push request :: suf)).accepted, p.ticket ≠ (run pre).requests.length := by
  rcases (run pre).push_cases request with ⟨room, _⟩ | ⟨_, heq⟩
  · exact absurd full (Nat.not_le.mpr room)
  have after := accounted_run (pre ++ .push request :: suf)
  have later := later_foldl suf ((run pre).push request)
  rw [← run_push] at later
  have hsent : ((run pre).requests.length, .err request.id MAILBOX_FULL) ∈
      ((run pre).push request).sent := by simp [heq]
  have hrejected : (run pre).requests.length ∈ ((run pre).push request).rejected := by simp [heq]
  refine ⟨?_, after.messages_eq (later.sent.subset hsent), ?_⟩
  · rw [run_push, List.foldl_nil, heq]
  · rintro p hp he
    exact after.issued.not_refused (List.mem_map_of_mem hp) (he ▸ later.rejected.subset hrejected)

/-- The events of a run that has a take at some point. -/
theorem taken_of_take (s : MailboxQueue) (h : .take ∈ suf) {p : MailboxRequest}
    (hp : p ∈ s.accepted) : p ∈ (suf.foldl step s).takes.flatten := by
  obtain ⟨before, rest, rfl⟩ := List.append_of_mem h
  have hbefore := (later_foldl before s).accepted.subset hp
  have htake : p ∈ (before.foldl step s).take.takes.flatten := by
    simpa [accepted, take, AgentMailbox.take] using hbefore
  have later := later_foldl rest ((before.foldl step s).step .take)
  rw [List.foldl_append]
  exact (List.IsPrefix.flatten later.takes).subset htake

/-- Any other push is accepted: its request is the only one under its ticket, is handed to exactly one
take once there is one, and gets no message before. -/
theorem push_accepted (room : (run pre).mailbox.inner.length < MAX_MAILBOX_DEPTH) :
    ((run (pre ++ .push request :: suf)).accepted.filter fun p =>
        p.ticket = (run pre).requests.length) = [⟨(run pre).requests.length, request⟩] ∧
      (.take ∈ suf → ((run (pre ++ .push request :: suf)).takes.flatten.filter fun p =>
        p.ticket = (run pre).requests.length) = [⟨(run pre).requests.length, request⟩]) ∧
      ((∀ p ∈ (run (pre ++ .push request :: suf)).takes.flatten,
          p.ticket ≠ (run pre).requests.length) →
        (run (pre ++ .push request :: suf)).messages (run pre).requests.length = []) := by
  rcases (run pre).push_cases request with ⟨_, heq⟩ | ⟨full, _⟩
  swap
  · exact absurd full (Nat.not_le.mpr room)
  have after := accounted_run (pre ++ .push request :: suf)
  have later := later_foldl suf ((run pre).push request)
  rw [← run_push] at later
  have haccepted : ⟨(run pre).requests.length, request⟩ ∈ ((run pre).push request).accepted := by
    simp [heq, accepted]
  have hmem := later.accepted.subset haccepted
  refine ⟨?_, fun htake => ?_, ?_⟩
  · have hfilter := filter_key_eq after.nodup hmem
    exact hfilter
  · have htaken := taken_of_take _ htake haccepted
    rw [← run_push] at htaken
    have hnodup := (List.sublist_append_left _ _).map MailboxRequest.ticket |>.nodup after.nodup
    have hfilter := filter_key_eq hnodup htaken
    exact hfilter
  · exact after.messages_eq_nil (after.issued.not_refused (List.mem_map_of_mem hmem))

end Push

/-- In every interleaving: the queue stays within its bound, accepted requests are in push order, no
request gets two replies, and a push is either refused at once, never to be taken, or accepted and
handed to exactly one take. -/
theorem mailbox_conserves (events : List QueueEvent) :
    (run events).mailbox.inner.length ≤ MAX_MAILBOX_DEPTH ∧
      ((run events).accepted.Pairwise fun p q => p.ticket < q.ticket) ∧
      (∀ ticket, ((run events).messages ticket).length ≤ 1) ∧
      ∀ pre request suf, events = pre ++ .push request :: suf →
        (MAX_MAILBOX_DEPTH ≤ (run pre).mailbox.inner.length ∧
          (run (pre ++ [.push request])).sent =
            (run pre).sent ++ [((run pre).requests.length, .err request.id MAILBOX_FULL)] ∧
          (run events).messages (run pre).requests.length = [.err request.id MAILBOX_FULL] ∧
          ∀ p ∈ (run events).accepted, p.ticket ≠ (run pre).requests.length) ∨
        ((run pre).mailbox.inner.length < MAX_MAILBOX_DEPTH ∧
          ((run events).accepted.filter fun p => p.ticket = (run pre).requests.length) =
            [⟨(run pre).requests.length, request⟩] ∧
          (.take ∈ suf → ((run events).takes.flatten.filter fun p =>
            p.ticket = (run pre).requests.length) = [⟨(run pre).requests.length, request⟩]) ∧
          ((∀ p ∈ (run events).takes.flatten, p.ticket ≠ (run pre).requests.length) →
            (run events).messages (run pre).requests.length = [])) := by
  have h := accounted_run events
  refine ⟨h.depth, h.ordered, h.length_messages_le, ?_⟩
  rintro pre request suf rfl
  rcases Nat.lt_or_ge (run pre).mailbox.inner.length MAX_MAILBOX_DEPTH with room | full
  · exact Or.inr ⟨room, push_accepted room⟩
  · exact Or.inl ⟨full, push_refused full⟩

end MailboxQueue

end GpuiAgent
