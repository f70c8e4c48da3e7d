import GpuiAgent.Server.HostExit

namespace GpuiAgent

open Framework

section Host

variable {σ ι : Type} (env : Env) (parse : List UInt8 → Except String Request)
  (token : Option String) (limits : ServerLimits) (host : AgentHost σ) (react : σ → ι → σ)

/-- A connection was accepted and one of its lines reads as this request and passes the gate. -/
def Admitted (events : List (HostEvent ι)) (req : Request) : Prop :=
  ∃ randomNonce nonce input read, .accept randomNonce input ∈ events ∧
    beginSession token randomNonce = some nonce ∧
    read ∈ incomingLines limits.maxLineBytes input.bytes.length input ∧
    judgeLine env parse token nonce read = .allow req

/-- What a thread has left to read came with its connection, and what it replies to was admitted. -/
structure ConnThread.Traced (events : List (HostEvent ι)) (thread : ConnThread HostPhase) : Prop where
  reads : thread.lines = [] ∨ ∃ randomNonce input, .accept randomNonce input ∈ events ∧
    beginSession token randomNonce = some thread.nonce ∧
    thread.lines <:+ incomingLines limits.maxLineBytes input.bytes.length input
  replies : ∀ cache req resp, thread.phase = .replying cache req resp →
    Admitted env parse token limits events req

/-- The request that a step has the host take, or whose reply it writes. -/
def HostServer.served? (s : HostServer σ) : HostEvent ι → Option Request
  | .line i _ => s.threads[i]?.bind fun thread => match thread.phase with
    | .reading _ => (thread.next env parse token .closed).2
    | _ => none
  | .settle i => s.threads[i]?.bind fun thread => match thread.phase with
    | .replying _ req _ => some req
    | _ => none
  | _ => none

variable {env parse token limits host react} {events events' : List (HostEvent ι)}
  {thread : ConnThread HostPhase} {s : HostServer σ}

theorem Admitted.mono {req : Request} (h : Admitted env parse token limits events req)
    (hsub : events ⊆ events') : Admitted env parse token limits events' req := by
  obtain ⟨randomNonce, nonce, input, read, hmem, h⟩ := h
  exact ⟨randomNonce, nonce, input, read, hsub hmem, h⟩

namespace ConnThread

theorem Traced.mono (h : Traced env parse token limits events thread) (hsub : events ⊆ events') :
    Traced env parse token limits events' thread where
  reads := by
    rcases h.reads with hnil | ⟨randomNonce, input, hmem, h⟩
    · exact .inl hnil
    · exact .inr ⟨randomNonce, input, hsub hmem, h⟩
  replies := fun cache req resp hphase => (h.replies cache req resp hphase).mono hsub

theorem traced_begin {randomNonce : Option (List UInt8)} {input : Incoming}
    (hmem : .accept randomNonce input ∈ events) : Traced env parse token limits events
      (.begin token limits randomNonce input (.reading {}) .closed) := by
  unfold ConnThread.begin
  cases hbegin : beginSession token randomNonce with
  | none => exact ⟨.inl rfl, fun _ _ _ hphase => by cases hphase⟩
  | some nonce =>
    exact ⟨.inr ⟨randomNonce, input, hmem, hbegin, List.suffix_rfl⟩,
      fun _ _ _ hphase => by cases hphase⟩

/-- A round keeps the thread's trace, and the request it gives was admitted. -/
theorem Traced.next (h : Traced env parse token limits events thread) (phase : HostPhase)
    (hphase : ∀ cache req resp, phase = .replying cache req resp →
      Admitted env parse token limits events req) :
    Traced env parse token limits events
        { (thread.next env parse token .closed).1 with phase } ∧
      ∀ req, (thread.next env parse token .closed).2 = some req →
        Admitted env parse token limits events req := by
  obtain ⟨nonce, lines, phase'⟩ := thread
  have hreads := h.reads
  unfold ConnThread.next
  cases lines with
  | nil => exact ⟨⟨.inl rfl, hphase⟩, fun _ hreq => by cases hreq⟩
  | cons line lines =>
    obtain ⟨randomNonce, input, hmem, hbegin, hsuffix⟩ := hreads.resolve_left (List.cons_ne_nil _ _)
    have hrest : lines <:+ incomingLines limits.maxLineBytes input.bytes.length input :=
      (List.suffix_cons line lines).trans hsuffix
    dsimp only
    cases hjudge : judgeLine env parse token nonce line with
    | skip =>
      exact ⟨⟨.inr ⟨randomNonce, input, hmem, hbegin, hrest⟩, hphase⟩, fun _ hreq => by cases hreq⟩
    | refuse resp => exact ⟨⟨.inl rfl, hphase⟩, fun _ hreq => by cases hreq⟩
    | allow r =>
      refine ⟨⟨.inr ⟨randomNonce, input, hmem, hbegin, hrest⟩, hphase⟩, fun req hreq => ?_⟩
      obtain rfl := Option.some_inj.mp hreq
      exact ⟨randomNonce, nonce, input, line, hmem, hbegin,
        hsuffix.subset List.mem_cons_self, hjudge⟩

end ConnThread

namespace HostServer

/-- Every thread is traced to its connection. -/
def Traced (env : Env) (parse : List UInt8 → Except String Request) (token : Option String)
    (limits : ServerLimits) (events : List (HostEvent ι)) (s : HostServer σ) : Prop :=
  ∀ thread ∈ s.threads, ConnThread.Traced env parse token limits events thread

theorem Traced.set (h : Traced env parse token limits events s) (i : Nat) (app : σ)
    (shutdown : Bool) (hthread : ConnThread.Traced env parse token limits events thread) :
    Traced env parse token limits events ⟨app, s.threads.set i thread, shutdown⟩ := by
  intro t ht
  rcases List.mem_or_eq_of_mem_set ht with ht | rfl
  · exact h t ht
  · exact hthread

/-- What a step serves was admitted. -/
theorem Traced.served (h : Traced env parse token limits events s) (e : HostEvent ι)
    {req : Request} (hreq : s.served? env parse token e = some req) :
    Admitted env parse token limits events req := by
  cases e with
  | accept randomNonce input => cases hreq
  | react input => cases hreq
  | line i polls =>
    obtain ⟨thread, hi, hreq⟩ := Option.bind_eq_some_iff.mp hreq
    have hthread := h thread (List.mem_of_getElem? hi)
    cases hphase : thread.phase with
    | reading cache =>
      rw [hphase] at hreq
      exact (hthread.next .closed fun _ _ _ h => by cases h).2 req hreq
    | replying cache req' resp =>
      rw [hphase] at hreq
      cases hreq
    | closed =>
      rw [hphase] at hreq
      cases hreq
  | settle i =>
    obtain ⟨thread, hi, hreq⟩ := Option.bind_eq_some_iff.mp hreq
    have hthread := h thread (List.mem_of_getElem? hi)
    cases hphase : thread.phase with
    | reading cache =>
      rw [hphase] at hreq
      cases hreq
    | replying cache req' resp =>
      rw [hphase] at hreq
      obtain rfl := Option.some_inj.mp hreq
      exact hthread.replies cache req' resp hphase
    | closed =>
      rw [hphase] at hreq
      cases hreq

theorem Traced.mono (h : Traced env parse token limits events s) (hsub : events ⊆ events') :
    Traced env parse token limits events' s :=
  fun t ht => (h t ht).mono hsub

theorem Traced.accept {randomNonce : Option (List UInt8)} {input : Incoming}
    (h : Traced env parse token limits events s) (hmem : .accept randomNonce input ∈ events) :
    Traced env parse token limits events (s.accept token limits randomNonce input) := by
  unfold HostServer.accept
  dsimp only
  split_ifs
  · exact h
  · intro t ht
    rcases List.mem_append.mp ht with ht | ht
    · exact h t ht
    · obtain rfl := List.mem_singleton.mp ht
      exact ConnThread.traced_begin hmem

theorem Traced.line (h : Traced env parse token limits events s) (i polls : Nat) :
    Traced env parse token limits events (s.line env parse token host i polls) := by
  unfold HostServer.line
  cases hi : s.threads[i]? with
  | none => exact h
  | some thread =>
    have hthread := h thread (List.mem_of_getElem? hi)
    dsimp only
    cases hphase : thread.phase with
    | replying cache req resp => exact h
    | closed => exact h
    | reading cache =>
      dsimp only
      cases hreq : (thread.next env parse token .closed).2 with
      | none =>
        refine h.set i s.app s.shutdown (hthread.next _ fun cache' req resp hreply => ?_).1
        rcases (thread.next_cases env parse token .closed).2.1 with heq | heq
        · rw [heq, hphase] at hreply
          cases hreply
        · rw [heq] at hreply
          cases hreply
      | some req =>
        obtain ⟨-, hadmitted⟩ := hthread.next .closed fun _ _ _ hreply => by cases hreply
        refine h.set i _ s.shutdown (hthread.next _ fun cache' req' resp hreply => ?_).1
        obtain ⟨-, rfl, -⟩ := HostPhase.replying.inj hreply
        exact hadmitted req hreq

theorem Traced.settle (h : Traced env parse token limits events s) (i : Nat) :
    Traced env parse token limits events (s.settle i) := by
  unfold HostServer.settle
  cases hi : s.threads[i]? with
  | none => exact h
  | some thread =>
    have hthread := h thread (List.mem_of_getElem? hi)
    dsimp only
    cases hphase : thread.phase with
    | reading cache => exact h
    | closed => exact h
    | replying cache req resp =>
      dsimp only
      split_ifs
      · exact h.set i s.app true ⟨.inl rfl, fun _ _ _ hreply => by cases hreply⟩
      · exact h.set i s.app s.shutdown ⟨hthread.reads, fun _ _ _ hreply => by cases hreply⟩

theorem Traced.step (h : Traced env parse token limits events s) (e : HostEvent ι) :
    Traced env parse token limits (events ++ [e])
      (s.step env parse token limits host react e) := by
  have hmono : Traced env parse token limits (events ++ [e]) s :=
    h.mono (List.subset_append_left _ _)
  cases e with
  | accept randomNonce input => exact hmono.accept (List.mem_append_right _ List.mem_cons_self)
  | line i polls => exact hmono.line i polls
  | settle i => exact hmono.settle i
  | react input => exact hmono

/-- A thread that serves nothing leaves the app and the flag. -/
theorem line_unserved (i polls : Nat)
    (hreq : s.served? env parse token (.line i polls : HostEvent ι) = none) :
    (s.line env parse token host i polls).app = s.app ∧
      (s.line env parse token host i polls).shutdown = s.shutdown := by
  rw [HostServer.served?] at hreq
  unfold HostServer.line
  cases hi : s.threads[i]? with
  | none => exact ⟨rfl, rfl⟩
  | some thread =>
    rw [hi, Option.bind_some] at hreq
    dsimp only
    cases hphase : thread.phase with
    | replying cache req resp => exact ⟨rfl, rfl⟩
    | closed => exact ⟨rfl, rfl⟩
    | reading cache =>
      rw [hphase] at hreq
      dsimp only at hreq ⊢
      rw [hreq]
      exact ⟨rfl, rfl⟩

theorem settle_unserved (i : Nat)
    (hreq : s.served? env parse token (.settle i : HostEvent ι) = none) :
    (s.settle i).app = s.app ∧ (s.settle i).shutdown = s.shutdown := by
  rw [HostServer.served?] at hreq
  unfold HostServer.settle
  cases hi : s.threads[i]? with
  | none => exact ⟨rfl, rfl⟩
  | some thread =>
    rw [hi, Option.bind_some] at hreq
    dsimp only
    cases hphase : thread.phase with
    | reading cache => exact ⟨rfl, rfl⟩
    | closed => exact ⟨rfl, rfl⟩
    | replying cache req resp =>
      rw [hphase] at hreq
      cases hreq

/-- Where no connection is served, the app changes of itself alone. -/
theorem step_unserved (e : HostEvent ι) (hreq : s.served? env parse token e = none)
    (hreact : ∀ input, e = .react input → react s.app input = s.app) :
    (s.step env parse token limits host react e).app = s.app ∧
      (s.step env parse token limits host react e).shutdown = s.shutdown := by
  cases e with
  | accept randomNonce input =>
    simp only [HostServer.step, HostServer.accept]
    split_ifs
    · exact ⟨rfl, rfl⟩
    · exact ⟨rfl, rfl⟩
  | line i polls => exact line_unserved i polls hreq
  | settle i => exact settle_unserved i hreq
  | react input => exact ⟨hreact input rfl, rfl⟩

theorem traced_run (app : σ) (events : List (HostEvent ι)) :
    Traced env parse token limits events
      (events.foldl (step env parse token limits host react) { app }) := by
  induction events using List.reverseRecOn with
  | nil => exact fun _ ht => absurd ht List.not_mem_nil
  | append_singleton pre e ih =>
    rw [List.foldl_append]
    exact ih.step e

end HostServer

end Host

end GpuiAgent
