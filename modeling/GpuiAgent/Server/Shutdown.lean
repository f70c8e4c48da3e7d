import GpuiAgent.Framework.History
import GpuiAgent.Host.SnapshotCache
import GpuiAgent.Server.MailboxExit

namespace GpuiAgent

open Framework

/-- In every state of a run, the flag is set only after an exit op was accepted, and the refusal of
one leaves it as it is. -/
structure StopsOnlyAccepted {τ ε : Type} (step : τ → ε → τ) (start : τ) (shutdown : τ → Bool)
    (accepts refuses : τ → ε → Prop) (events : List ε) : Prop where
  accepted : ∀ pre, pre <+: events → shutdown (pre.foldl step start) = true →
    Happened step start accepts pre
  serving : ∀ pre e, pre ++ [e] <+: events → refuses (pre.foldl step start) e →
    shutdown ((pre ++ [e]).foldl step start) = shutdown (pre.foldl step start)

section Servers

variable {σ ι : Type} (env : Env) (parse : List UInt8 → Except String Request)
  (token : Option String) (limits : ServerLimits) (app : σ)

/-- Both loops, over any run of requests on any number of connections. -/
def HostServer.StopsOnlyAccepted (host : AgentHost σ) (react : σ → ι → σ)
    (events : List (HostEvent ι)) : Prop :=
  GpuiAgent.StopsOnlyAccepted (HostServer.step env parse token limits host react) { app }
    HostServer.shutdown (Accepts env parse token host) Refuses events

def MailboxListener.StopsOnlyAccepted (ui : UiThread σ ι) (events : List (ListenerEvent ι)) :
    Prop :=
  GpuiAgent.StopsOnlyAccepted (MailboxListener.step env parse token limits ui)
    { server := { app } } MailboxListener.shutdown (Accepts ui) Refuses events

variable {env parse token limits app}

/-- In runs that refuse no `Shutdown`, both servers stop on an accepted exit only. -/
theorem servers_stopOnlyAccepted (host : AgentHost σ) (react : σ → ι → σ) (ui : UiThread σ ι)
    {events : List (HostEvent ι)} {events' : List (ListenerEvent ι)}
    (htakes : ∀ pre e, pre ++ [e] <+: events → HostServer.TakesShutdown env parse token host
      (pre.foldl (HostServer.step env parse token limits host react) { app }) e)
    (htakes' : ∀ pre e, pre ++ [e] <+: events' → MailboxListener.TakesShutdown
      (pre.foldl (MailboxListener.step env parse token limits ui) { server := { app } }) e) :
    HostServer.StopsOnlyAccepted env parse token limits app host react events ∧
      MailboxListener.StopsOnlyAccepted env parse token limits app ui events' := by
  have hhost := history_induction (HostServer.exitInv_start app)
    (fun A s e (h : HostServer.ExitInv A s) htakes => h.step e htakes) htakes
  have hmailbox := history_induction (MailboxListener.exitInv_start app)
    (fun A s e (h : MailboxListener.ExitInv ui A s) htakes => h.step e htakes) htakes'
  constructor
  · refine ⟨fun pre hpre => (hhost pre hpre).shutdown, fun pre e hpre hrefuses => ?_⟩
    rw [List.foldl_append]
    exact (hhost pre ((List.prefix_append _ _).trans hpre)).refuses e hrefuses
  · refine ⟨fun pre hpre => (hmailbox pre hpre).shutdown, fun pre e hpre hrefuses => ?_⟩
    rw [List.foldl_append]
    exact (hmailbox pre ((List.prefix_append _ _).trans hpre)).refuses e hrefuses

end Servers

def shutdownLine : String := "\x7b\"v\":2,\"id\":\"1\",\"op\":\"shutdown\"\x7d"

/-- Reads one line. -/
def parseShutdown (buf : List UInt8) : Except String Request :=
  if buf = shutdownLine.toUTF8.toList then .ok (.new "1" .shutdown) else .error "expected value"

def shutdownInput : Incoming := { bytes := shutdownLine.toUTF8.toList ++ [NEWLINE] }

def lineLimits : ServerLimits := ⟨64, 1⟩

/-- One connection with one `Shutdown`. -/
def shutdownRun : List (HostEvent Unit) := [.accept none shutdownInput, .line 0 0, .settle 0]

/-- The same through the mailbox, while the UI thread does `ui`. -/
def mailboxShutdownRun (ui : List (UiEvent Unit)) : List (ListenerEvent Unit) :=
  [.accept none shutdownInput, .line 0] ++ ui.map .ui ++ [.poll 0 true false, .settle 0]

def countingUi : UiThread Nat Unit := (countingHost.observedUi Env.bare 0 fun n _ => n).toUiThread

/-- The thread waits for nothing, or an ok message is on its channel. -/
def MailboxListener.answeredOk {σ : Type} (s : MailboxListener σ) (i : Nat) : Bool :=
  match s.threads[i]? with
  | none => true
  | some thread => match thread.phase with
    | .waiting _ ticket => (s.server.sent.lookup ticket).any Response.ok
    | _ => true

theorem MailboxListener.takesShutdown_of_answeredOk {σ ι : Type} {s : MailboxListener σ} {i : Nat}
    (h : s.answeredOk i = true) (expired late : Bool) :
    s.TakesShutdown (.poll i expired late : ListenerEvent ι) := by
  intro thread req ticket hi hphase _ answer hanswer
  unfold answeredOk at h
  rw [hi] at h
  dsimp only at h
  rw [hphase] at h
  obtain ⟨resp, hresp, hok⟩ := (Option.any_eq_true _ _).mp h
  rw [hresp] at hanswer
  exact ⟨resp, (Option.some_inj.mp hanswer).symm, hok⟩

theorem servers_stopOnlyAccepted_shutdown :
    HostServer.StopsOnlyAccepted Env.bare parseShutdown none lineLimits 0 countingHost
        (fun n _ => n) shutdownRun ∧
      MailboxListener.StopsOnlyAccepted Env.bare parseShutdown none lineLimits 0 countingUi
        (mailboxShutdownRun [.take, .serve]) := by
  refine servers_stopOnlyAccepted countingHost _ countingUi ?_ ?_
  · intro pre e _
    cases e with
    | line i polls =>
      intro thread cache req _ _ _ hop
      rw [hop]
      rfl
    | _ => trivial
  · refine forall_prefix_of_getElem fun i hi => ?_
    match i, hi with
    | 0, _ => trivial
    | 1, _ => trivial
    | 2, _ => trivial
    | 3, _ => trivial
    | 4, _ => exact MailboxListener.takesShutdown_of_answeredOk (by decide +kernel) true false
    | 5, _ => trivial

def busyHost : AgentHost Nat := { countingHost with dispatch := fun n _ => (.error "busy", n) }

/-- A host that refuses the `Shutdown`, and a UI thread that does not come to it in time: both
servers stop all the same. -/
theorem servers_stopRefused :
    ¬ HostServer.StopsOnlyAccepted Env.bare parseShutdown none lineLimits 0 busyHost (fun n _ => n)
        shutdownRun ∧
      ¬ MailboxListener.StopsOnlyAccepted Env.bare parseShutdown none lineLimits 0 countingUi
        (mailboxShutdownRun []) := by
  constructor
  · intro h
    obtain ⟨pre, e, -, haccepts⟩ := h.accepted shutdownRun (List.prefix_refl _) (by decide +kernel)
    cases e with
    | line i polls =>
      obtain ⟨_, _, req, _, _, _, _, haccepted⟩ := haccepts
      have hbusy : acceptsExit busyHost
          (pre.foldl (HostServer.step Env.bare parseShutdown none lineLimits busyHost
            fun n _ => n) { app := 0 }).app req.op = false := by
        simp [acceptsExit, busyHost, Except.isOk, Except.toBool]
      cases hbusy.symm.trans haccepted
    | _ => cases haccepts
  · intro h
    obtain ⟨pre, e, hpre, haccepts⟩ :=
      h.accepted (mailboxShutdownRun []) (List.prefix_refl _) (by decide +kernel)
    have hmem : e ∈ mailboxShutdownRun [] := hpre.subset (by simp)
    cases e with
    | ui e => simp [mailboxShutdownRun] at hmem
    | _ => cases haccepts

end GpuiAgent
