import GpuiAgent.Framework.Result
import GpuiAgent.Framework.RustString
import GpuiAgent.Server.Framing
import GpuiAgent.Server.Listener

namespace GpuiAgent

open Framework

inductive IpAddr where
  | v4 (a b c d : UInt8)
  | v6 (bits : BitVec 128)
  deriving DecidableEq

structure SocketAddr where
  ip : IpAddr
  port : UInt16
  deriving DecidableEq

inductive SecurityError where
  | disabled
  | releaseBlocked
  | nonLoopback (addr : SocketAddr)
  | remoteDisabled (addr : SocketAddr)
  | remoteRequiresToken (addr : SocketAddr)
  | loopbackRequiresToken
  | badAddr (raw : String)
  deriving DecidableEq

/-- What a process finds around it: its variables, how the standard library reads and shows an
address, and whether it was built with debug assertions. -/
structure ProcessEnv where
  var : String → Option String
  parseAddr : String → Except String SocketAddr
  showAddr : SocketAddr → String
  debugAssertions : Bool

/-- The text of an error. -/
def SecurityError.message (proc : ProcessEnv) : SecurityError → String
  | .disabled => "automation is disabled (set GPUI_AGENT=1 to opt in)"
  | .releaseBlocked =>
    "refusing to enable automation in a release build without GPUI_AGENT_ALLOW_RELEASE=1"
  | .nonLoopback addr => "automation must bind a loopback address, got " ++ proc.showAddr addr
  | .remoteDisabled addr => "refusing non-loopback address " ++ proc.showAddr addr ++
      " without GPUI_AGENT_REMOTE=1 (host) or --allow-remote / GPUI_AGENT_ALLOW_REMOTE=1 (client)"
  | .remoteRequiresToken addr =>
    "non-loopback address " ++ proc.showAddr addr ++ " requires a non-empty GPUI_AGENT_TOKEN"
  | .loopbackRequiresToken => "loopback bind requires a non-empty GPUI_AGENT_TOKEN " ++
      "(set GPUI_AGENT_INSECURE_NO_TOKEN=1 only for local demos)"
  | .badAddr raw => "invalid GPUI_AGENT_ADDR: " ++ raw

structure AgentConfig where
  addr : SocketAddr
  token : Option String
  deriving DecidableEq

def DEFAULT_PORT : UInt16 := 17421

def MAX_CONNECTIONS : Nat := 32

def defaultAddr : SocketAddr := ⟨.v4 127 0 0 1, DEFAULT_PORT⟩

/-- `ServerLimits::default`. -/
def ServerLimits.default : ServerLimits := ⟨MAX_LINE_BYTES, MAX_CONNECTIONS⟩

def isLoopbackIp : IpAddr → Bool
  | .v4 a _ _ _ => a = 127
  | .v6 bits => bits = 1

def isLoopbackAddr (addr : SocketAddr) : Bool := isLoopbackIp addr.ip

def truthyEnv (proc : ProcessEnv) (name : String) : Bool :=
  (proc.var name).any fun v => ["1", "true", "yes", "on"].contains (toAsciiLowercase (trim v))

def authorizeRemoteEndpoint (addr : SocketAddr) (token : Option String) (allowRemote : Bool) :
    Except SecurityError SocketAddr :=
  if !allowRemote then .error (.remoteDisabled addr)
  else if token.any fun t => !t.isEmpty then .ok addr
  else .error (.remoteRequiresToken addr)

def authorizeBindWithInsecure (addr : SocketAddr) (token : Option String)
    (allowRemote insecureNoToken : Bool) : Except SecurityError SocketAddr :=
  if isLoopbackAddr addr then
    if token.any fun t => !t.isEmpty then .ok addr
    else if insecureNoToken then .ok addr
    else .error .loopbackRequiresToken
  else authorizeRemoteEndpoint addr token allowRemote

/-- A client may reach a loopback host without a token. -/
def authorizeClient (addr : SocketAddr) (token : Option String) (allowRemote : Bool) :
    Except SecurityError SocketAddr :=
  if isLoopbackAddr addr then .ok addr else authorizeRemoteEndpoint addr token allowRemote

/-- `GPUI_AGENT_TOKEN`, unless it is empty. -/
def tokenVar (proc : ProcessEnv) : Option String :=
  (proc.var "GPUI_AGENT_TOKEN").filter fun s => !s.isEmpty

/-- `GPUI_AGENT_ADDR`, or the default where it is not set. -/
def addrVar (proc : ProcessEnv) : Except SecurityError SocketAddr :=
  match proc.var "GPUI_AGENT_ADDR" with
  | some raw => (proc.parseAddr raw).mapError fun _ => .badAddr raw
  | none => .ok defaultAddr

/-- What the environment asks for. -/
def fromEnv (proc : ProcessEnv) : Except SecurityError (Option AgentConfig) :=
  if !truthyEnv proc "GPUI_AGENT" then .ok none
  else if !proc.debugAssertions && !truthyEnv proc "GPUI_AGENT_ALLOW_RELEASE" then
    .error .releaseBlocked
  else do
    let addr ← addrVar proc
    let token := tokenVar proc
    let _ ← authorizeBindWithInsecure addr token (truthyEnv proc "GPUI_AGENT_REMOTE")
      (truthyEnv proc "GPUI_AGENT_INSECURE_NO_TOKEN")
    return some ⟨addr, token⟩

section Policy

variable {proc : ProcessEnv} {addr addr' : SocketAddr} {token : Option String}
  {allowRemote insecureNoToken : Bool}

theorem authorizeRemoteEndpoint_ok
    (h : authorizeRemoteEndpoint addr token allowRemote = .ok addr') :
    allowRemote = true ∧ ∃ t, token = some t ∧ t ≠ "" := by
  unfold authorizeRemoteEndpoint at h
  split_ifs at h with hremote htoken
  obtain ⟨t, rfl, ht⟩ := Option.any_eq_true _ _ |>.mp htoken
  have hne : t ≠ "" := by simpa using ht
  exact ⟨by simpa using hremote, t, rfl, hne⟩

/-- A host without a token listens on a loopback address that was opened on purpose. -/
theorem authorizeBindWithInsecure_ok
    (h : authorizeBindWithInsecure addr token allowRemote insecureNoToken = .ok addr') :
    (∃ t, token = some t ∧ t ≠ "" ∧ (isLoopbackAddr addr = true ∨ allowRemote = true)) ∨
      (isLoopbackAddr addr = true ∧ insecureNoToken = true) := by
  unfold authorizeBindWithInsecure at h
  split_ifs at h with hloop htoken hinsecure
  · obtain ⟨t, rfl, ht⟩ := Option.any_eq_true _ _ |>.mp htoken
    have hne : t ≠ "" := by simpa using ht
    exact .inl ⟨t, rfl, hne, .inl hloop⟩
  · exact .inr ⟨hloop, hinsecure⟩
  · obtain ⟨hremote, t, rfl, hne⟩ := authorizeRemoteEndpoint_ok h
    exact .inl ⟨t, rfl, hne, .inr hremote⟩

/-- An environment that starts a host has it guarded by a token, or has opened it on loopback. -/
theorem fromEnv_guarded {config : AgentConfig} (h : fromEnv proc = .ok (some config)) :
    (∃ t, config.token = some t ∧ t ≠ "" ∧ proc.var "GPUI_AGENT_TOKEN" = some t ∧
      (isLoopbackAddr config.addr = true ∨ truthyEnv proc "GPUI_AGENT_REMOTE" = true)) ∨
      (config.token = none ∧ isLoopbackAddr config.addr = true ∧
        truthyEnv proc "GPUI_AGENT_INSECURE_NO_TOKEN" = true) := by
  unfold fromEnv at h
  split_ifs at h with hon hrelease
  · simp at h
  · obtain ⟨addr, -, h⟩ := bind_eq_ok.mp h
    obtain ⟨_, hbind, h⟩ := bind_eq_ok.mp h
    have hconfig : config = ⟨addr, tokenVar proc⟩ := by
      have hsome := Except.ok.inj h
      exact (Option.some.inj hsome).symm
    subst hconfig
    cases htoken : tokenVar proc with
    | none =>
      rw [htoken] at hbind
      rcases authorizeBindWithInsecure_ok hbind with ⟨t, ht, -⟩ | ⟨hloop, hinsecure⟩
      · cases ht
      · exact .inr ⟨rfl, hloop, hinsecure⟩
    | some t =>
      rw [htoken] at hbind
      obtain ⟨hvar, hne⟩ := Option.filter_eq_some_iff.mp htoken
      have hempty : t ≠ "" := by simpa using hne
      rcases authorizeBindWithInsecure_ok hbind with ⟨t', ht', -, hwhere⟩ | ⟨hloop, -⟩
      · exact .inl ⟨t, rfl, hempty, hvar, hwhere⟩
      · exact .inl ⟨t, rfl, hempty, hvar, .inl hloop⟩

end Policy

end GpuiAgent
