import GpuiAgent.Server.HostExit
import GpuiAgent.Server.Messages

namespace GpuiAgent

open Framework

section Mailbox

variable {σ ι : Type} {ui : UiThread σ ι} {A : Prop}

namespace MailboxServer

/-- The UI thread answers ok to an exit op. -/
def AcceptsExit (ui : UiThread σ ι) (s : MailboxServer σ) : MailboxEvent ι → Prop
  | .serve => ∃ posted backlog resp, s.pending = none ∧ s.backlog = posted :: backlog ∧
      isExit posted.request.op = true ∧ (ui.serve s.app posted).1 = some resp ∧ resp.ok = true
  | .finish => ∃ posted resp, s.pending = some posted ∧ isExit posted.request.op = true ∧
      (ui.finish s.app).1 = some resp ∧ resp.ok = true
  | _ => False

/-- What is known of the channels once `A` says that an exit op was accepted: an ok message for one
is there only then, and a `Shutdown` has no answer but an ok one. -/
structure ExitInv (ui : UiThread σ ι) (A : Prop) (s : MailboxServer σ) : Prop where
  ticketed : Ticketed s
  sourced : Sourced ui s
  sent : ∀ m ∈ s.sent, ∃ req, s.requests[m.1]? = some req ∧
    (isExit req.op = true → m.2.ok = true → A)
  answers : ∀ a ∈ s.answers, ∃ req, s.requests[a.1]? = some req ∧
    (req.op = .shutdown → ∃ resp, a.2 = .ok resp ∧ resp.ok = true)

variable {s : MailboxServer σ}

theorem ExitInv.mono {A' : Prop} (h : ExitInv ui A s) (hA : A → A') : ExitInv ui A' s where
  ticketed := h.ticketed
  sourced := h.sourced
  sent := fun m hm =>
    let ⟨req, hreq, hok⟩ := h.sent m hm
    ⟨req, hreq, fun hexit hresp => hA (hok hexit hresp)⟩
  answers := h.answers

theorem ExitInv.push (h : ExitInv ui A s) (request : Request) :
    ExitInv ui A (s.push request) := by
  have hgrown : s.requests <+: s.requests ++ [request] := List.prefix_append _ _
  have hsent : ∀ m ∈ s.sent, ∃ req, (s.requests ++ [request])[m.1]? = some req ∧
      (isExit req.op = true → m.2.ok = true → A) := fun m hm =>
    let ⟨req, hreq, hok⟩ := h.sent m hm
    ⟨req, getElem?_extend hgrown hreq, hok⟩
  have hanswers : ∀ a ∈ s.answers, ∃ req, (s.requests ++ [request])[a.1]? = some req ∧
      (req.op = .shutdown → ∃ resp, a.2 = .ok resp ∧ resp.ok = true) := fun a ha =>
    let ⟨req, hreq, hok⟩ := h.answers a ha
    ⟨req, getElem?_extend hgrown hreq, hok⟩
  have hticketed := h.ticketed.push request
  have hsourced := h.sourced.step (.push request)
  rw [MailboxServer.step] at hsourced
  rcases s.push_cases request with ⟨-, heq⟩ | ⟨-, heq⟩
  · rw [heq] at hticketed hsourced ⊢
    exact ⟨hticketed, hsourced, hsent, hanswers⟩
  · rw [heq] at hticketed hsourced ⊢
    refine ⟨hticketed, hsourced, fun m hm => ?_, hanswers⟩
    rcases List.mem_append.mp hm with hm | hm
    · exact hsent m hm
    · obtain rfl := List.mem_singleton.mp hm
      exact ⟨request, List.getElem?_concat_length, fun _ hok => by cases hok⟩

theorem wait_requests (s : MailboxServer σ) (ticket : Nat) (expired : Bool) :
    (s.wait ticket expired).requests = s.requests := by
  rcases s.wait_cases ticket expired with heq | ⟨_, _, _, _, heq⟩ <;> rw [heq]

/-- A look at a channel, where a `Shutdown` is not given up. -/
theorem ExitInv.wait (h : ExitInv ui A s) {ticket : Nat} {expired : Bool} {req : Request}
    (hreq : s.requests[ticket]? = some req)
    (htakes : req.op = .shutdown → ∀ answer,
      AgentMailbox.recvTimeout (s.sent.lookup ticket) expired = some answer →
        ∃ resp, answer = .ok resp ∧ resp.ok = true) :
    ExitInv ui A (s.wait ticket expired) := by
  have hticketed : Ticketed (s.step ui (.wait ticket expired)) := h.ticketed.step _
  have hsourced := h.sourced.step (.wait ticket expired)
  rw [MailboxServer.step] at hticketed hsourced
  rcases s.wait_cases ticket expired with heq | ⟨_, _, answer, hanswer, heq⟩
  · rw [heq]
    exact h
  · rw [heq] at hticketed hsourced ⊢
    refine ⟨hticketed, hsourced, h.sent, fun a ha => ?_⟩
    rcases List.mem_append.mp ha with ha | ha
    · exact h.answers a ha
    · obtain rfl := List.mem_singleton.mp ha
      exact ⟨req, hreq, fun hop => htakes hop answer hanswer⟩

/-- The UI thread replies to a request, or leaves its reply for later. -/
theorem ExitInv.reply {posted : MailboxRequest} {resp : Option Response}
    (hticketed : Ticketed (s.reply posted resp)) (hsourced : Sourced ui (s.reply posted resp))
    (hsent : ∀ m ∈ s.sent, ∃ req, s.requests[m.1]? = some req ∧
      (isExit req.op = true → m.2.ok = true → A))
    (hanswers : ∀ a ∈ s.answers, ∃ req, s.requests[a.1]? = some req ∧
      (req.op = .shutdown → ∃ resp, a.2 = .ok resp ∧ resp.ok = true))
    (hposted : s.requests[posted.ticket]? = some posted.request)
    (hresp : isExit posted.request.op = true → ∀ r, resp = some r → r.ok = true → A) :
    ExitInv ui A (s.reply posted resp) := by
  refine ⟨hticketed, hsourced, ?_, by simpa using hanswers⟩
  rw [reply_requests, reply_sent]
  intro m hm
  rcases List.mem_append.mp hm with hm | hm
  · exact hsent m hm
  · rw [Option.mem_toList, Option.map_eq_some_iff] at hm
    obtain ⟨r, hr, rfl⟩ := hm
    exact ⟨posted.request, hposted, fun hexit hok => hresp hexit r hr hok⟩

theorem ExitInv.uiStep (h : ExitInv ui A s) (e : UiEvent ι) :
    ExitInv ui (A ∨ AcceptsExit ui s e.toMailbox) (s.step ui e.toMailbox) := by
  have hmono : ExitInv ui (A ∨ AcceptsExit ui s e.toMailbox) s := h.mono Or.inl
  have hticketed : Ticketed (s.step ui e.toMailbox) := h.ticketed.step _
  have hsourced := h.sourced.step e.toMailbox
  cases e with
  | take => exact ⟨hticketed, hsourced, hmono.sent, hmono.answers⟩
  | react input => exact ⟨hticketed, hsourced, hmono.sent, hmono.answers⟩
  | serve =>
    rw [UiEvent.toMailbox, MailboxServer.step] at hticketed hsourced ⊢
    rcases s.serve_cases ui with heq | ⟨posted, backlog, hidle, hqueued, heq⟩
    · rw [heq]
      exact hmono
    · have hposted : s.requests[posted.ticket]? = some posted.request :=
        h.ticketed.posted posted (by simp [accepted, hqueued])
      rw [heq] at hticketed hsourced ⊢
      exact ExitInv.reply hticketed hsourced hmono.sent hmono.answers hposted
        fun hexit r hr hok => Or.inr ⟨posted, backlog, r, hidle, hqueued, hexit, hr, hok⟩
  | finish =>
    rw [UiEvent.toMailbox, MailboxServer.step] at hticketed hsourced ⊢
    rcases s.finish_cases ui with heq | ⟨posted, hbusy, heq⟩
    · rw [heq]
      exact hmono
    · -- the request in hand was served, so its ticket is its own
      obtain ⟨served, hserved, hsame, -⟩ := h.sourced.pending posted hbusy
      have hposted : s.requests[posted.ticket]? = some posted.request := by
        refine h.ticketed.posted posted ?_
        rw [accepted, List.append_assoc]
        exact List.mem_append_left _ (List.mem_map.mpr ⟨served, hserved, hsame⟩)
      rw [heq] at hticketed hsourced ⊢
      exact ExitInv.reply hticketed hsourced hmono.sent hmono.answers hposted
        fun hexit r hr hok => Or.inr ⟨posted, r, hbusy, hexit, hr, hok⟩

end MailboxServer

/-- The tickets a `wait_until` holds are of probes and asserts. -/
def WaitUntilCall.Harmless (requests : List Request) (call : WaitUntilCall) : Prop :=
  ∀ ticket, (call.phase = .probing ticket ∨ ∃ rev, call.phase = .asserting ticket rev) →
    ∃ req, requests[ticket]? = some req ∧ isExit req.op = false

namespace Waiting

variable {req : Request} {s : MailboxServer σ} {call : WaitUntilCall}

theorem harmless_idle {requests : List Request} {call : WaitUntilCall}
    (h : (∃ rev, call.phase = .posting rev) ∨ call.phase = .top ∨
      ∃ resp, call.phase = .returned resp) : call.Harmless requests := by
  intro ticket hphase
  rcases h with ⟨rev, hidle⟩ | hidle | ⟨resp, hidle⟩ <;>
    rcases hphase with hphase | ⟨rev', hphase⟩ <;> cases hidle.symm.trans hphase

theorem probed_idle (late : Bool) (answer : Except String Response) :
    (∃ rev, (probed req call late answer).phase = .posting rev) ∨
      (probed req call late answer).phase = .top ∨
      ∃ resp, (probed req call late answer).phase = .returned resp := by
  unfold probed
  cases answer with
  | error error => exact Or.inl ⟨none, rfl⟩
  | ok resp =>
    dsimp only
    cases resp.rev with
    | none => exact Or.inl ⟨none, rfl⟩
    | some rev =>
      dsimp only
      split_ifs
      · exact Or.inr (Or.inr ⟨_, rfl⟩)
      · exact Or.inr (Or.inl rfl)
      · exact Or.inl ⟨_, rfl⟩

theorem asserted_idle (probedRev : Option Nat) (late : Bool) (answer : Except String Response) :
    (∃ rev, (asserted req call probedRev late answer).phase = .posting rev) ∨
      (asserted req call probedRev late answer).phase = .top ∨
      ∃ resp, (asserted req call probedRev late answer).phase = .returned resp := by
  right
  unfold asserted
  cases answer with
  | error error => exact Or.inr ⟨_, rfl⟩
  | ok resp =>
    dsimp only
    split_ifs <;> first | exact Or.inr ⟨_, rfl⟩ | exact Or.inl rfl

/-- A step of a `wait_until` posts nothing but probes and asserts. -/
theorem stepCall_exitInv (req : Request) (spec : AssertSpec) (h : s.ExitInv ui A)
    (hcall : call.Harmless s.requests) (expired late : Bool) :
    (stepCall req spec ⟨s, call⟩ expired late).server.ExitInv ui A ∧
      (stepCall req spec ⟨s, call⟩ expired late).call.Harmless
        (stepCall req spec ⟨s, call⟩ expired late).server.requests ∧
      s.requests <+: (stepCall req spec ⟨s, call⟩ expired late).server.requests := by
  have wait (ticket : Nat)
      (hphase : call.phase = .probing ticket ∨ ∃ rev, call.phase = .asserting ticket rev) :
      (s.wait ticket expired).ExitInv ui A ∧
        (s.wait ticket expired).requests = s.requests := by
    obtain ⟨r, hr, hexit⟩ := hcall ticket hphase
    refine ⟨h.wait hr fun hop => ?_, s.wait_requests ticket expired⟩
    rw [isExit_shutdown hop] at hexit
    cases hexit
  have posted (r : Request) (hexit : isExit r.op = false) :
      ∃ q, (s.push r).requests[s.requests.length]? = some q ∧ isExit q.op = false := by
    rw [s.push_requests]
    exact ⟨r, List.getElem?_concat_length, hexit⟩
  have grown (r : Request) : s.requests <+: (s.push r).requests := by
    rw [s.push_requests]
    exact List.prefix_append _ _
  unfold stepCall
  cases hphase : call.phase with
  | top =>
    refine ⟨h.push _, fun ticket hticket => ?_, grown _⟩
    rcases hticket with hticket | ⟨rev, hticket⟩
    · obtain rfl := WaitPhase.probing.inj hticket
      exact posted _ rfl
    · cases hticket
  | posting probedRev =>
    refine ⟨h.push _, fun ticket hticket => ?_, grown _⟩
    rcases hticket with hticket | ⟨rev, hticket⟩
    · cases hticket
    · obtain ⟨rfl, -⟩ := WaitPhase.asserting.inj hticket
      exact posted _ rfl
  | probing ticket =>
    obtain ⟨hserver, hrequests⟩ := wait ticket (Or.inl hphase)
    dsimp only
    cases (s.wait ticket expired).answers.lookup ticket with
    | none => exact ⟨hserver, hrequests ▸ hcall, hrequests ▸ List.prefix_refl _⟩
    | some answer =>
      exact ⟨hserver, harmless_idle (probed_idle late answer), hrequests ▸ List.prefix_refl _⟩
  | asserting ticket probedRev =>
    obtain ⟨hserver, hrequests⟩ := wait ticket (Or.inr ⟨probedRev, hphase⟩)
    dsimp only
    cases (s.wait ticket expired).answers.lookup ticket with
    | none => exact ⟨hserver, hrequests ▸ hcall, hrequests ▸ List.prefix_refl _⟩
    | some answer =>
      exact ⟨hserver, harmless_idle (asserted_idle probedRev late answer),
        hrequests ▸ List.prefix_refl _⟩
  | returned resp => exact ⟨h, hcall, List.prefix_refl _⟩

end Waiting

namespace MailboxListener

/-- A step in which the UI thread accepts an exit op. -/
def Accepts (ui : UiThread σ ι) (s : MailboxListener σ) : ListenerEvent ι → Prop
  | .ui e => s.server.AcceptsExit ui e.toMailbox
  | _ => False

/-- A thread that writes the refusal of an exit op. -/
def Refuses (s : MailboxListener σ) : ListenerEvent ι → Prop
  | .settle i => ∃ thread req resp, s.threads[i]? = some thread ∧
      thread.phase = .replying req resp ∧ isExit req.op = true ∧ resp.ok = false
  | _ => False

/-- A thread that waits for a `Shutdown` is not left without a reply, nor given an error. -/
def TakesShutdown (s : MailboxListener σ) : ListenerEvent ι → Prop
  | .poll i expired _ => ∀ thread req ticket, s.threads[i]? = some thread →
      thread.phase = .waiting req ticket → req.op = .shutdown → ∀ answer,
        AgentMailbox.recvTimeout (s.server.sent.lookup ticket) expired = some answer →
          ∃ resp, answer = .ok resp ∧ resp.ok = true
  | _ => True

/-- What is known of a thread once `A` says that an exit op was accepted. -/
def ThreadInv (A : Prop) (requests : List Request) : MailboxPhase → Prop
  | .waiting req ticket => requests[ticket]? = some req
  | .polling req _ call => isExit req.op = false ∧ call.Harmless requests
  | .replying req resp =>
    (req.op = .shutdown → resp.ok = true) ∧ (isExit req.op = true → resp.ok = true → A)
  | _ => True

structure ExitInv (ui : UiThread σ ι) (A : Prop) (s : MailboxListener σ) : Prop where
  server : s.server.ExitInv ui A
  threads : ∀ thread ∈ s.threads, ThreadInv A s.server.requests thread.phase
  shutdown : s.shutdown = true → A

theorem ThreadInv.mono {A' : Prop} {requests requests' : List Request} {phase : MailboxPhase}
    (h : ThreadInv A requests phase) (hA : A → A') (hrequests : requests <+: requests') :
    ThreadInv A' requests' phase := by
  cases phase with
  | waiting req ticket => exact getElem?_extend hrequests h
  | polling req spec call =>
    refine ⟨h.1, fun ticket hphase => ?_⟩
    obtain ⟨r, hr, hexit⟩ := h.2 ticket hphase
    exact ⟨r, getElem?_extend hrequests hr, hexit⟩
  | replying req resp => exact ⟨h.1, fun hexit hok => hA (h.2 hexit hok)⟩
  | _ => exact h

variable {s : MailboxListener σ}

theorem ExitInv.mono {A' : Prop} (h : s.ExitInv ui A) (hA : A → A') : s.ExitInv ui A' where
  server := h.server.mono hA
  threads := fun thread hthread => (h.threads thread hthread).mono hA (List.prefix_refl _)
  shutdown := fun hset => hA (h.shutdown hset)

/-- The mailbox moves on, and a thread takes a new phase. -/
theorem ExitInv.set (h : s.ExitInv ui A) (thread : ConnThread MailboxPhase)
    {server : MailboxServer σ} (i : Nat) (hserver : server.ExitInv ui A)
    (hrequests : s.server.requests <+: server.requests)
    (hthread : ThreadInv A server.requests thread.phase) :
    ExitInv ui A { s with server, threads := s.threads.set i thread } where
  server := hserver
  threads := by
    intro t ht
    rcases List.mem_or_eq_of_mem_set ht with ht | rfl
    · exact (h.threads t ht).mono id hrequests
    · exact hthread
  shutdown := h.shutdown

variable {env : Env} {parse : List UInt8 → Except String Request} {token : Option String}
  {limits : ServerLimits}

theorem ExitInv.accept (h : s.ExitInv ui A) (randomNonce : Option (List UInt8))
    (input : Incoming) : (s.accept token limits randomNonce input).ExitInv ui A := by
  unfold MailboxListener.accept
  dsimp only
  split_ifs
  · exact h
  · refine ⟨h.server, fun t ht => ?_, h.shutdown⟩
    rcases List.mem_append.mp ht with ht | ht
    · exact h.threads t ht
    · obtain rfl := List.mem_singleton.mp ht
      unfold ConnThread.begin
      split <;> trivial

theorem ExitInv.line (h : s.ExitInv ui A) (i : Nat) :
    (s.line env parse token i).ExitInv ui A := by
  have hpush (req : Request) (thread : ConnThread MailboxPhase) :
      ExitInv ui A { s with
        server := s.server.push req
        threads := s.threads.set i
          { thread with phase := .waiting req s.server.requests.length } } := by
    refine h.set _ i (h.server.push req) ?_ ?_
    · rw [s.server.push_requests]
      exact List.prefix_append _ _
    · change (s.server.push req).requests[s.server.requests.length]? = some req
      rw [s.server.push_requests]
      exact List.getElem?_concat_length
  unfold MailboxListener.line
  cases hi : s.threads[i]? with
  | none => exact h
  | some thread =>
    dsimp only
    cases hphase : thread.phase with
    | reading =>
      obtain ⟨-, hround, -⟩ := thread.next_cases env parse token .closed
      dsimp only
      cases (thread.next env parse token .closed).2 with
      | none =>
        refine h.set _ i h.server (List.prefix_refl _) ?_
        rw [hphase] at hround
        rcases hround with heq | heq <;> rw [heq] <;> trivial
      | some req =>
        dsimp only
        cases hop : req.op with
        | waitUntil timeoutMs spec =>
          refine h.set _ i h.server (List.prefix_refl _) ⟨?_, ?_⟩
          · simp [isExit, hop, opIsConfirmedQuit]
          · exact Waiting.harmless_idle (Or.inr (Or.inl rfl))
        | _ => exact hpush req _
    | _ => exact h

/-- The answer that a thread has waited for, as it is going to be written. -/
theorem ThreadInv.answered {server : MailboxServer σ} (hserver : server.ExitInv ui A)
    {req : Request} {ticket : Nat} (hreq : server.requests[ticket]? = some req)
    (answer : Except String Response) : server.answers.lookup ticket = some answer →
    ThreadInv A server.requests (.replying req (Response.withAuth (match answer with
      | .ok resp => resp
      | .error err => .err "?" err) token)) := by
  intro hanswer
  have hmem := mem_of_lookup hanswer
  constructor
  · intro hop
    obtain ⟨req', hreq', htaken⟩ := hserver.answers _ hmem
    obtain rfl := Option.some_inj.mp (hreq.symm.trans hreq')
    obtain ⟨resp, hresp, hok⟩ := htaken hop
    obtain rfl : answer = .ok resp := hresp
    exact hok
  · intro hexit hok
    cases answer with
    | error error => cases hok
    | ok resp =>
      obtain ⟨req', hreq', hsent⟩ := hserver.sent _ (hserver.sourced.answers _ hmem resp rfl)
      obtain rfl := Option.some_inj.mp (hreq.symm.trans hreq')
      exact hsent hexit hok

/-- Any reply to an op that does not end the server. -/
theorem ThreadInv.harmless {requests : List Request} {req : Request}
    (hexit : isExit req.op = false) (resp : Response) :
    ThreadInv A requests (.replying req resp) := by
  constructor
  · intro hop
    rw [isExit_shutdown hop] at hexit
    cases hexit
  · intro hexit'
    rw [hexit] at hexit'
    cases hexit'

theorem ExitInv.poll (h : s.ExitInv ui A) (i : Nat) (expired late : Bool)
    (htakes : s.TakesShutdown (.poll i expired late : ListenerEvent ι)) :
    (s.poll token i expired late).ExitInv ui A := by
  unfold MailboxListener.poll
  cases hi : s.threads[i]? with
  | none => exact h
  | some thread =>
    have hthread := h.threads thread (List.mem_of_getElem? hi)
    dsimp only
    cases hphase : thread.phase with
    | waiting req ticket =>
      rw [hphase] at hthread
      have hserver : (s.server.wait ticket expired).ExitInv ui A :=
        h.server.wait hthread (htakes thread req ticket hi hphase)
      have hrequests := s.server.wait_requests ticket expired
      dsimp only
      cases hanswer : (s.server.wait ticket expired).answers.lookup ticket with
      | none => exact ⟨hserver, by rw [hrequests]; exact h.threads, h.shutdown⟩
      | some answer =>
        have hreq : (s.server.wait ticket expired).requests[ticket]? = some req := by
          rw [hrequests]
          exact hthread
        exact h.set _ i hserver (hrequests ▸ List.prefix_refl _)
          (ThreadInv.answered hserver hreq answer hanswer)
    | polling req spec call =>
      rw [hphase] at hthread
      obtain ⟨hexit, hcall⟩ := hthread
      obtain ⟨hserver, hharmless, hrequests⟩ :=
        Waiting.stepCall_exitInv req spec h.server hcall expired late
      refine h.set _ i hserver hrequests ?_
      dsimp only
      -- the call has returned, or it goes on
      split
      · exact ThreadInv.harmless hexit _
      · exact ⟨hexit, hharmless⟩
    | _ => exact h

theorem ExitInv.settle (h : s.ExitInv ui A) (i : Nat) : (s.settle i).ExitInv ui A := by
  unfold MailboxListener.settle
  cases hi : s.threads[i]? with
  | none => exact h
  | some thread =>
    have hthread := h.threads thread (List.mem_of_getElem? hi)
    dsimp only
    cases hphase : thread.phase with
    | replying req resp =>
      rw [hphase] at hthread
      obtain ⟨hshutdown, haccepted⟩ := hthread
      dsimp only
      split_ifs with hends
      · obtain ⟨hexit, hok⟩ := isExit_of_endsSession hends hshutdown
        have hset := h.set { thread with lines := [], phase := .closed } i h.server
          (List.prefix_refl _) trivial
        exact ⟨hset.server, hset.threads, fun _ => haccepted hexit hok⟩
      · exact h.set _ i h.server (List.prefix_refl _) trivial
    | _ => exact h

theorem ExitInv.step (h : s.ExitInv ui A) (e : ListenerEvent ι) (htakes : s.TakesShutdown e) :
    (s.step env parse token limits ui e).ExitInv ui (A ∨ s.Accepts ui e) := by
  cases e with
  | accept randomNonce input => exact (h.accept randomNonce input).mono Or.inl
  | line i => exact (h.line i).mono Or.inl
  | poll i expired late => exact (h.poll i expired late htakes).mono Or.inl
  | settle i => exact (h.settle i).mono Or.inl
  | ui e =>
    refine ⟨h.server.uiStep e, fun thread hthread => ?_, fun hset => Or.inl (h.shutdown hset)⟩
    exact (h.threads thread hthread).mono Or.inl
      (MailboxServer.later_step ui s.server e.toMailbox).requests

theorem exitInv_start (app : σ) :
    ExitInv ui False { server := { app } : MailboxListener σ } where
  server := ⟨MailboxServer.ticketed_start app, MailboxServer.sourced_start ui app,
    fun _ hm => absurd hm List.not_mem_nil, fun _ ha => absurd ha List.not_mem_nil⟩
  threads := fun _ ht => absurd ht List.not_mem_nil
  shutdown := fun hset => by cases hset

theorem ExitInv.refuses (h : s.ExitInv ui A) (e : ListenerEvent ι) (hrefuses : s.Refuses e) :
    (s.step env parse token limits ui e).shutdown = s.shutdown := by
  cases e with
  | settle i =>
    obtain ⟨thread, req, resp, hi, hphase, -, hresp⟩ := hrefuses
    have hreply := h.threads thread (List.mem_of_getElem? hi)
    rw [hphase] at hreply
    have hends := endsSession_of_error hresp hreply.1
    simp [MailboxListener.step, MailboxListener.settle, hi, hphase, hends]
  | _ => cases hrefuses

end MailboxListener

end Mailbox

end GpuiAgent
