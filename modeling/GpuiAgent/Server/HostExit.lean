import GpuiAgent.Server.Listener

namespace GpuiAgent

open Framework

/-- An op that ends the server where it is accepted. -/
def isExit (op : Op) : Bool := op = .shutdown || opIsConfirmedQuit op

theorem isExit_shutdown {op : Op} (h : op = .shutdown) : isExit op = true := by
  simp [isExit, h]

/-- The host is handed an exit op and answers ok. -/
def acceptsExit {σ : Type} (host : AgentHost σ) (s : σ) (op : Op) : Bool :=
  if op = .shutdown then (host.dispatch s op).1.isOk
  else opIsConfirmedQuit op &&
    (authorizeKeybindingOp op (host.keybindings s) (host.isAppFocused s)).isOk &&
    (host.dispatch s op).1.isOk

theorem endsSession_of_error {req : Request} {resp : Response} (hresp : resp.ok = false)
    (hshutdown : req.op = .shutdown → resp.ok = true) : endsSession req resp = false := by
  have hne : req.op ≠ .shutdown := by
    intro hop
    rw [hshutdown hop] at hresp
    cases hresp
  simp [endsSession, hne, hresp]

theorem isExit_of_endsSession {req : Request} {resp : Response} (h : endsSession req resp = true)
    (hshutdown : req.op = .shutdown → resp.ok = true) :
    isExit req.op = true ∧ resp.ok = true := by
  unfold endsSession at h
  rw [Bool.or_eq_true, Bool.and_eq_true, decide_eq_true_eq] at h
  rcases h with hop | ⟨hquit, hok⟩
  · exact ⟨isExit_shutdown hop, hshutdown hop⟩
  · exact ⟨by simp [isExit, hquit], hok⟩

section Thread

variable {φ : Type} (env : Env) (parse : List UInt8 → Except String Request)
  (token : Option String) (thread : ConnThread φ) (closed : φ)

/-- A round keeps the nonce, ends in the phase it began in or closed, and gives an authorised
request if any. -/
theorem ConnThread.next_cases :
    (thread.next env parse token closed).1.nonce = thread.nonce ∧
      ((thread.next env parse token closed).1.phase = thread.phase ∨
        (thread.next env parse token closed).1.phase = closed) ∧
      ∀ req, (thread.next env parse token closed).2 = some req →
        authorizeRequest env req token thread.nonce = .ok () := by
  unfold ConnThread.next
  cases thread.lines with
  | nil => exact ⟨rfl, Or.inr rfl, fun _ h => by cases h⟩
  | cons line lines =>
    dsimp only
    cases hjudge : judgeLine env parse token thread.nonce line with
    | skip => exact ⟨rfl, Or.inl rfl, fun _ h => by cases h⟩
    | refuse resp => exact ⟨rfl, Or.inr rfl, fun _ h => by cases h⟩
    | allow r =>
      refine ⟨rfl, Or.inl rfl, fun req hreq => ?_⟩
      obtain rfl := Option.some_inj.mp hreq
      obtain ⟨_, -, -, -, hauth⟩ := judgeLine_eq_allow_iff.mp hjudge
      exact hauth

end Thread

section Host

variable {σ ι : Type} {env : Env} {parse : List UInt8 → Except String Request}
  {token : Option String} {limits : ServerLimits} {host : AgentHost σ} {react : σ → ι → σ}

theorem ofDispatch_ok (id : String) (result : Except String DispatchResult) :
    (Response.ofDispatch id result).ok = result.isOk := by
  cases result <;> rfl

/-- The reply to an exit op says whether the host accepted it. -/
theorem handleRequestCached_exit {nonce : Option (List UInt8)} {polls : Nat} {s : σ}
    {cache : TreeCache} {req : Request} (hauth : authorizeRequest env req token nonce = .ok ())
    (hexit : isExit req.op = true) :
    (handleRequestCached env host polls s cache req token nonce).1.ok =
      acceptsExit host s req.op := by
  unfold handleRequestCached acceptsExit
  rw [hauth]
  cases hop : req.op with
  | shutdown => simp [dispatchResponse, ofDispatch_ok]
  | keybinding binding chord scope confirm activate =>
    have hquit : opIsConfirmedQuit (.keybinding binding chord scope confirm activate) = true := by
      simpa [isExit, hop] using hexit
    simp only [reduceCtorEq, if_false, hquit, Bool.true_and]
    cases authorizeKeybindingOp (.keybinding binding chord scope confirm activate)
        (host.keybindings s) (host.isAppFocused s) with
    | error error => rfl
    | ok entry => simp [dispatchResponse, ofDispatch_ok, Except.isOk, Except.toBool]
  | _ => simp [isExit, hop, opIsConfirmedQuit] at hexit

namespace HostServer

/-- A step in which the host accepts an exit op. -/
def Accepts (env : Env) (parse : List UInt8 → Except String Request) (token : Option String)
    (host : AgentHost σ) (s : HostServer σ) : HostEvent ι → Prop
  | .line i _ => ∃ thread cache req, s.threads[i]? = some thread ∧
      thread.phase = .reading cache ∧ (thread.next env parse token .closed).2 = some req ∧
      isExit req.op = true ∧ acceptsExit host s.app req.op = true
  | _ => False

/-- A thread that writes the refusal of an exit op. -/
def Refuses (s : HostServer σ) : HostEvent ι → Prop
  | .settle i => ∃ thread cache req resp, s.threads[i]? = some thread ∧
      thread.phase = .replying cache req resp ∧ isExit req.op = true ∧ resp.ok = false
  | _ => False

/-- The host does not refuse the `Shutdown` that is served next, if one is. -/
def TakesShutdown (env : Env) (parse : List UInt8 → Except String Request)
    (token : Option String) (host : AgentHost σ) (s : HostServer σ) : HostEvent ι → Prop
  | .line i _ => ∀ thread cache req, s.threads[i]? = some thread →
      thread.phase = .reading cache → (thread.next env parse token .closed).2 = some req →
      req.op = .shutdown → acceptsExit host s.app req.op = true
  | _ => True

/-- What is known once `A` says that an exit op was accepted. -/
structure ExitInv (A : Prop) (s : HostServer σ) : Prop where
  threads : ∀ thread ∈ s.threads, ∀ cache req resp, thread.phase = .replying cache req resp →
    (req.op = .shutdown → resp.ok = true) ∧ (isExit req.op = true → resp.ok = true → A)
  shutdown : s.shutdown = true → A

variable {A : Prop} {s : HostServer σ}

theorem ExitInv.mono {A' : Prop} (h : ExitInv A s) (hA : A → A') : ExitInv A' s where
  threads := fun thread hthread cache req resp hphase =>
    have hreply := h.threads thread hthread cache req resp hphase
    ⟨hreply.1, fun hexit hok => hA (hreply.2 hexit hok)⟩
  shutdown := fun hset => hA (h.shutdown hset)

/-- A thread that replies to nothing may take the place of another. -/
theorem ExitInv.set (h : ExitInv A s) (thread : ConnThread HostPhase) (app : σ) (i : Nat)
    (hthread : ∀ cache req resp, thread.phase = .replying cache req resp →
      (req.op = .shutdown → resp.ok = true) ∧ (isExit req.op = true → resp.ok = true → A)) :
    ExitInv A { s with app, threads := s.threads.set i thread } where
  threads := by
    intro t ht
    rcases List.mem_or_eq_of_mem_set ht with ht | rfl
    · exact h.threads t ht
    · exact hthread
  shutdown := h.shutdown

theorem ExitInv.accept (h : ExitInv A s) (randomNonce : Option (List UInt8)) (input : Incoming) :
    ExitInv A (s.accept token limits randomNonce input) := by
  unfold HostServer.accept
  dsimp only
  split_ifs
  · exact h
  · refine ⟨fun t ht => ?_, h.shutdown⟩
    rcases List.mem_append.mp ht with ht | ht
    · exact h.threads t ht
    · obtain rfl := List.mem_singleton.mp ht
      intro cache req resp hphase
      unfold ConnThread.begin at hphase
      split at hphase <;> cases hphase

theorem ExitInv.line (h : ExitInv A s) (i polls : Nat)
    (htakes : TakesShutdown env parse token host s (.line i polls : HostEvent ι)) :
    ExitInv (A ∨ Accepts env parse token host s (.line i polls : HostEvent ι))
      (s.line env parse token host i polls) := by
  have hmono : ExitInv (A ∨ Accepts env parse token host s (.line i polls : HostEvent ι)) s :=
    h.mono Or.inl
  unfold HostServer.line
  cases hi : s.threads[i]? with
  | none => exact hmono
  | some thread =>
    dsimp only
    cases hphase : thread.phase with
    | replying cache req resp => exact hmono
    | closed => exact hmono
    | reading cache =>
      obtain ⟨hnonce, hround, hauth⟩ := thread.next_cases env parse token .closed
      dsimp only
      cases hreq : (thread.next env parse token .closed).2 with
      | none =>
        refine hmono.set _ s.app i fun cache' req resp hreply => ?_
        rw [hphase] at hround
        rcases hround with heq | heq <;> cases heq.symm.trans hreply
      | some req =>
        refine hmono.set _ _ i fun cache' req' resp hreply => ?_
        obtain ⟨rfl, rfl, rfl⟩ := HostPhase.replying.inj hreply
        rw [hnonce]
        -- the thread holds the host's own answer until it settles
        have hok (hexit : isExit req.op = true) :
            (handleRequestCached env host polls s.app cache req token thread.nonce).1.ok =
              acceptsExit host s.app req.op :=
          handleRequestCached_exit (hauth req hreq) hexit
        constructor
        · intro hop
          rw [hok (isExit_shutdown hop)]
          exact htakes thread cache req hi hphase hreq hop
        · intro hexit hresp
          rw [hok hexit] at hresp
          exact Or.inr ⟨thread, cache, req, hi, hphase, hreq, hexit, hresp⟩

theorem ExitInv.settle (h : ExitInv A s) (i : Nat) : ExitInv A (s.settle i) := by
  unfold HostServer.settle
  cases hi : s.threads[i]? with
  | none => exact h
  | some thread =>
    dsimp only
    cases hphase : thread.phase with
    | reading cache => exact h
    | closed => exact h
    | replying cache req resp =>
      obtain ⟨hshutdown, haccepted⟩ :=
        h.threads thread (List.mem_of_getElem? hi) cache req resp hphase
      dsimp only
      split_ifs with hends
      · obtain ⟨hexit, hok⟩ := isExit_of_endsSession hends hshutdown
        have hset := h.set { thread with lines := [], phase := .closed } s.app i
          fun _ _ _ hreply => by cases hreply
        exact ⟨hset.threads, fun _ => haccepted hexit hok⟩
      · exact h.set _ s.app i fun _ _ _ hreply => by cases hreply

theorem ExitInv.step (h : ExitInv A s) (e : HostEvent ι)
    (htakes : TakesShutdown env parse token host s e) :
    ExitInv (A ∨ Accepts env parse token host s e)
      (s.step env parse token limits host react e) := by
  cases e with
  | accept randomNonce input => exact (h.accept randomNonce input).mono Or.inl
  | line i polls => exact h.line i polls htakes
  | settle i => exact (h.settle i).mono Or.inl
  | react input => exact ⟨(h.mono Or.inl).threads, (h.mono Or.inl).shutdown⟩

theorem exitInv_start (app : σ) : ExitInv False { app : HostServer σ } where
  threads := fun _ ht => absurd ht List.not_mem_nil
  shutdown := fun hset => by cases hset

/-- The refusal of an exit op leaves the flag. -/
theorem ExitInv.refuses (h : ExitInv A s) (e : HostEvent ι) (hrefuses : Refuses s e) :
    (s.step env parse token limits host react e).shutdown = s.shutdown := by
  cases e with
  | settle i =>
    obtain ⟨thread, cache, req, resp, hi, hphase, -, hresp⟩ := hrefuses
    have hreply := h.threads thread (List.mem_of_getElem? hi) cache req resp hphase
    have hends := endsSession_of_error hresp hreply.1
    simp [HostServer.step, HostServer.settle, hi, hphase, hends]
  | _ => cases hrefuses

end HostServer

end Host

end GpuiAgent
