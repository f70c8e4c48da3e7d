import GpuiAgent.Server.Admission
import GpuiAgent.Server.Security
import GpuiAgent.Server.SessionAuth
import GpuiAgent.Todo.Atomic

namespace GpuiAgent

namespace TodoStore

/-- `todo-headless serve` up to its server, or its exit code. -/
def serve (proc : ProcessEnv) : Except Nat AgentConfig :=
  match fromEnv proc with
  | .ok (some config) => .ok config
  | .ok none | .error _ => .error 2

/-- A token that is set keeps a host with this configuration, which only `GPUI_AGENT_REMOTE` opens
to other machines. -/
def KeptBy (proc : ProcessEnv) (config : AgentConfig) (token : String) : Prop :=
  config.token = some token ∧ token ≠ "" ∧ proc.var "GPUI_AGENT_TOKEN" = some token ∧
    (isLoopbackAddr config.addr = true ∨ truthyEnv proc "GPUI_AGENT_REMOTE" = true)

/-- A host that takes requests from everybody on its own machine, as it was told to. -/
def LeftOpen (proc : ProcessEnv) (config : AgentConfig) : Prop :=
  config.token = none ∧ isLoopbackAddr config.addr = true ∧
    truthyEnv proc "GPUI_AGENT_INSECURE_NO_TOKEN" = true

/-- The main loop of `serve` sees that the process is to end. -/
def exits (s : HostServer TodoStore) : Bool := s.shutdown || s.app.shutdown

section Serving

variable (env : Env) (parse : List UInt8 → Except String Request) (config : AgentConfig)

/-- The server of the process after a run. -/
def serving (events : List (HostEvent Empty)) : HostServer TodoStore :=
  events.foldl (HostServer.step env parse config.token .default (agentHost env) fun s _ => s)
    { app := new .headless }

/-- A client has proved the token on a connection, in a line that reads as this request. -/
def Proved (token : String) (events : List (HostEvent Empty)) (req : Request) : Prop :=
  ∃ nonce input read, .accept (some nonce) input ∈ events ∧
    read ∈ incomingLines MAX_LINE_BYTES input.bytes.length input ∧
    AuthorisedLine env parse token (some nonce) read req

/-- What the last step of a run does to the store and to the flag is owed to this request. -/
def OwedTo (pre : List (HostEvent Empty)) (e : HostEvent Empty) (req : Request) : Prop :=
  let s := serving env parse config pre
  let t := serving env parse config (pre ++ [e])
  s.served? env parse config.token e = some req ∧
    (t.app = s.app ∨ t.app = s.app.call env (.agent req.op))

variable {env parse config}

theorem serving_concat (pre : List (HostEvent Empty)) (e : HostEvent Empty) :
    serving env parse config (pre ++ [e]) = (serving env parse config pre).step env parse
      config.token .default (agentHost env) (fun s _ => s) e := by
  rw [serving, List.foldl_append]
  rfl

theorem proved_of_admitted {token : String} {events : List (HostEvent Empty)} {req : Request}
    (h : Admitted env parse (some token) .default events req) :
    Proved env parse token events req := by
  obtain ⟨randomNonce, nonce, input, read, hmem, hbegin, hread, hjudge⟩ := h
  cases randomNonce with
  | none => cases hbegin
  | some n =>
    obtain rfl : some n = nonce := Option.some_inj.mp hbegin
    exact ⟨n, input, read, hmem, hread, judgeLine_allow.mp hjudge⟩

/-- The store is left, or it takes the op of the request that is served. -/
theorem step_app {s : HostServer TodoStore} {e : HostEvent Empty} {req : Request}
    (hreq : s.served? env parse config.token e = some req) :
    (s.step env parse config.token .default (agentHost env) (fun s _ => s) e).app = s.app ∨
      (s.step env parse config.token .default (agentHost env) (fun s _ => s) e).app =
        s.app.call env (.agent req.op) := by
  cases e with
  | accept randomNonce input => cases hreq
  | react input => exact input.elim
  | settle i =>
    left
    simp only [HostServer.step, HostServer.settle]
    split
    · rfl
    · split
      · split_ifs
        · rfl
        · rfl
      · rfl
  | line i polls =>
    obtain ⟨thread, hi, hreq⟩ := Option.bind_eq_some_iff.mp hreq
    rw [HostServer.step, HostServer.line, hi]
    dsimp only
    cases hphase : thread.phase with
    | replying cache req resp => exact .inl rfl
    | closed => exact .inl rfl
    | reading cache =>
      rw [hphase] at hreq
      dsimp only at hreq ⊢
      rw [hreq]
      rcases handleRequestCached_state env (agentHost env) polls s.app cache req config.token
        (thread.next env parse config.token HostPhase.closed).1.nonce with h | ⟨-, -, -, h⟩
      · exact .inl h
      · exact .inr h

/-- A step serves an admitted request, or it changes nothing. -/
theorem serving_step (pre : List (HostEvent Empty)) (e : HostEvent Empty) :
    ((serving env parse config (pre ++ [e])).app = (serving env parse config pre).app ∧
      (serving env parse config (pre ++ [e])).shutdown = (serving env parse config pre).shutdown) ∨
    ∃ req, Admitted env parse config.token .default pre req ∧
      OwedTo env parse config pre e req := by
  have htraced : HostServer.Traced env parse config.token .default pre
      (serving env parse config pre) := HostServer.traced_run _ pre
  cases hreq : (serving env parse config pre).served? env parse config.token e with
  | none =>
    left
    rw [serving_concat]
    exact HostServer.step_unserved e hreq fun input => input.elim
  | some req =>
    right
    refine ⟨req, htraced.served e hreq, hreq, ?_⟩
    rw [serving_concat]
    exact step_app hreq

/-- Where nobody proves the token, the store stays as it was made and the process goes on. -/
theorem serving_untouched {token : String} {events : List (HostEvent Empty)}
    (htoken : config.token = some token) (hnone : ∀ req, ¬ Proved env parse token events req) :
    (serving env parse config events).app = new .headless ∧
      (serving env parse config events).shutdown = false := by
  induction events using List.reverseRecOn with
  | nil => exact ⟨rfl, rfl⟩
  | append_singleton pre e ih =>
    have hpre : ∀ req, ¬ Proved env parse token pre req := by
      intro req h
      obtain ⟨nonce, input, read, hmem, h⟩ := h
      exact hnone req ⟨nonce, input, read, List.mem_append_left _ hmem, h⟩
    obtain ⟨happ, hflag⟩ := ih hpre
    rcases @serving_step env parse config pre e with
      ⟨hsame, hkept⟩ | ⟨req, hadmitted, -⟩
    · exact ⟨hsame.trans happ, hkept.trans hflag⟩
    · rw [htoken] at hadmitted
      exact absurd (proved_of_admitted hadmitted) (hpre req)

end Serving

/-- A daemon that starts is kept by its token, or was left open on loopback. In every run of one
that is kept, each change is owed to a request whose line proves the token on its connection, and
where no line does, the store stays as it was made and the process goes on. -/
theorem serve_guarded (env : Env) (parse : List UInt8 → Except String Request) (proc : ProcessEnv)
    (config : AgentConfig) (hserve : serve proc = .ok config) :
    LeftOpen proc config ∨ ∃ token, KeptBy proc config token ∧
      (∀ pre e, ((serving env parse config (pre ++ [e])).app = (serving env parse config pre).app ∧
          (serving env parse config (pre ++ [e])).shutdown =
            (serving env parse config pre).shutdown) ∨
        ∃ req, Proved env parse token pre req ∧ OwedTo env parse config pre e req) ∧
      ∀ events, (∀ req, ¬ Proved env parse token events req) →
        (serving env parse config events).app = new .headless ∧
          exits (serving env parse config events) = false := by
  have hfrom : fromEnv proc = .ok (some config) := by
    unfold serve at hserve
    cases hconfig : fromEnv proc with
    | error err =>
      rw [hconfig] at hserve
      cases hserve
    | ok found =>
      rw [hconfig] at hserve
      cases found with
      | none => cases hserve
      | some config' =>
        obtain rfl := Except.ok.inj hserve
        rfl
  rcases fromEnv_guarded hfrom with ⟨token, htoken, hne, hvar, hwhere⟩ | hopen
  · right
    refine ⟨token, ⟨htoken, hne, hvar, hwhere⟩, fun pre e => ?_, fun events hnone => ?_⟩
    · rcases @serving_step env parse config pre e with
        hsame | ⟨req, hadmitted, howed⟩
      · exact .inl hsame
      · rw [htoken] at hadmitted
        exact .inr ⟨req, proved_of_admitted hadmitted, howed⟩
    · obtain ⟨happ, hflag⟩ := serving_untouched htoken hnone
      refine ⟨happ, ?_⟩
      rw [exits, happ, hflag]
      rfl
  · exact .inl hopen

/-- Variables that start the daemon with a token, in a debug build. -/
def tokenProc : ProcessEnv where
  var name := [("GPUI_AGENT", " TRUE "), ("GPUI_AGENT_TOKEN", "s3cret")].lookup name
  parseAddr _ := .error "invalid socket address syntax"
  showAddr _ := "127.0.0.1:17421"
  debugAssertions := true

/-- A stranger connects and asks for the shutdown without the token. -/
def strangerEvents : List (HostEvent Empty) :=
  [.accept (some (List.replicate 32 7)) { bytes := [43, NEWLINE] }, .line 0 0, .settle 0]

theorem serve_guarded_stranger : serve tokenProc = .ok ⟨defaultAddr, some "s3cret"⟩ ∧
    (serving .bare (fun _ => .ok (.new "1" .shutdown)) ⟨defaultAddr, some "s3cret"⟩
      strangerEvents).app = new .headless ∧
    exits (serving .bare (fun _ => .ok (.new "1" .shutdown)) ⟨defaultAddr, some "s3cret"⟩
      strangerEvents) = false := by
  have hserve : serve tokenProc = .ok ⟨defaultAddr, some "s3cret"⟩ := by decide +kernel
  refine ⟨hserve, ?_⟩
  rcases serve_guarded .bare (fun _ => .ok (.new "1" .shutdown)) tokenProc
    ⟨defaultAddr, some "s3cret"⟩ hserve with ⟨hopen, -⟩ | ⟨token, -, -, huntouched⟩
  · cases hopen
  · refine huntouched strangerEvents fun req h => ?_
    obtain ⟨nonce, input, read, -, -, buf, -, -, hparse, hauth⟩ := h
    obtain rfl := Except.ok.inj hparse
    obtain ⟨-, -, n, -, -, auth, hnone, -⟩ := hauth
    cases hnone

end TodoStore

end GpuiAgent
