import GpuiAgent.Client.AgentClient

namespace GpuiAgent

open Framework

-- durations are in nanoseconds
def fromMillis (ms : Nat) : Nat := ms * 1000000

def fromSecs (secs : Nat) : Nat := secs * 1000000000

/-- `u64::saturating_add`. -/
def saturatingAddU64 (a b : Nat) : Nat := min (a + b) (2 ^ 64 - 1)

/-- `AgentClient::timeout_for` for a client with this timeout. -/
def timeoutFor (timeout : Nat) : Op → Nat
  | .screenshot _ .scrolled _ _ => max timeout (fromSecs 30)
  | .waitUntil timeoutMs _ => max timeout (fromMillis (saturatingAddU64 timeoutMs 2000))
  | .wait (some ms) => max timeout (fromMillis (saturatingAddU64 ms 2000))
  | _ => timeout

theorem le_timeoutFor (timeout : Nat) (op : Op) : timeout ≤ timeoutFor timeout op := by
  unfold timeoutFor
  split
  · exact Nat.le_max_left _ _
  · exact Nat.le_max_left _ _
  · exact Nat.le_max_left _ _
  · exact le_rfl

/-- The client waits for the reply to an op for as long as the socket lets it. -/
structure ReplyWait where
  op : Op
  readTimeout : Nat
  deriving DecidableEq

/-- The wait lasts as long as the op needs. -/
def ReplyWait.Covered (timeout : Nat) (wait : ReplyWait) : Prop :=
  timeoutFor timeout wait.op ≤ wait.readTimeout

instance (timeout : Nat) : DecidablePred (ReplyWait.Covered timeout) :=
  fun _ => inferInstanceAs (Decidable (_ ≤ _))

/-- An `AgentClient` with its timeout. The session is its socket's read timeout. -/
structure TimedClient where
  addr : String
  timeout : Nat
  nextId : Nat
  session : Option Nat
  deriving DecidableEq

/-- A `Call` with the waits for replies in it. -/
structure TimedCall (α : Type) where
  result : α
  client : TimedClient
  log : List LineWrite
  waits : List ReplyWait

def wireWaits (a : Attempt) (op : Op) (readTimeout : Nat) : List ReplyWait :=
  match a.write 0, a.flush with
  | .complete, .ok () => [⟨op, readTimeout⟩]
  | _, _ => []

/-- The replies waited for from the `i`-th on, up to the first that does not come. -/
def readWaits (a : Attempt) (readTimeout : Nat) : Nat → List Op → List ReplyWait
  | _, [] => []
  | i, op :: ops => ⟨op, readTimeout⟩ :: match a.read i with
    | .line _ => readWaits a readTimeout (i + 1) ops
    | _ => []

def pipelineWaits (a : Attempt) (ops : List Op) (readTimeout : Nat) : List ReplyWait :=
  match (writeLines a 0 0 ops).1, a.flush with
  | .ok (), .ok () => readWaits a readTimeout 0 ops
  | _, _ => []

namespace TimedClient

def connect (addr : String) : TimedClient := ⟨addr, fromSecs 8, 1, none⟩

/-- An open session keeps its own timeout. -/
def setTimeout (c : TimedClient) (timeout : Nat) : TimedClient := { c with timeout }

/-- Every attempt opens its session with the timeout of the op, or gives it to the live one. -/
def roundtripLoop (c : TimedClient) (id : Nat) (op : Op) (timeout : Nat) (lastErr : String) :
    List Attempt → TimedCall (Except String Response)
  | [] => ⟨.error (AgentClient.connectFailed c.addr lastErr), c, [], []⟩
  | a :: attempts => match if c.session.isSome then a.setTimeout else a.connect with
    | .error error => roundtripLoop { c with session := none } id op timeout error attempts
    | .ok () => match exchangeWire a id op with
      | (.ok resp, log) =>
        ⟨.ok resp, { c with session := some timeout }, log, wireWaits a op timeout⟩
      | (.error error, log) =>
        let rest := roundtripLoop { c with session := none } id op timeout error attempts
        { rest with log := log ++ rest.log, waits := wireWaits a op timeout ++ rest.waits }

/-- `rpc_op`. -/
def rpcOp (c : TimedClient) (op : Op) (attempts : List Attempt) :
    TimedCall (Except String Response) :=
  roundtripLoop { c with nextId := c.nextId + 1 } c.nextId op (timeoutFor c.timeout op) "" attempts

/-- A live session is used with the timeout it has. -/
def pipelineLoop (c : TimedClient) (startId : Nat) (ops : List Op) (lastErr : String) :
    List Attempt → TimedCall (Except String (List Response))
  | [] => ⟨.error (AgentClient.connectFailed c.addr lastErr), c, [], []⟩
  | a :: attempts => match if c.session.isSome then .ok () else a.connect with
    | .error error => pipelineLoop { c with session := none } startId ops error attempts
    | .ok () =>
      let readTimeout := c.session.getD c.timeout
      let waits := pipelineWaits a ops readTimeout
      match exchangePipeline a startId ops with
      | (.ok resps, log) => ⟨.ok resps, { c with session := some readTimeout }, log, waits⟩
      | (.error (.fatal error), log) => ⟨.error error, { c with session := none }, log, waits⟩
      | (.error (.retryable error), log) =>
        let rest := pipelineLoop { c with session := none } startId ops error attempts
        { rest with log := log ++ rest.log, waits := waits ++ rest.waits }

def pipelineRetry (c : TimedClient) (ops : List Op) (attempts : List Attempt) :
    TimedCall (Except String (List Response)) :=
  pipelineLoop { c with nextId := c.nextId + ops.length } c.nextId ops "" attempts

/-- `rpc_pipeline` on at most `MAX_MAILBOX_DEPTH` ops. -/
def rpcPipelineChunk (c : TimedClient) (ops : List Op) (attempts : List Attempt) :
    TimedCall (Except String (List Response)) :=
  match ops with
  | [] => ⟨.ok [], c, [], []⟩
  | [op] =>
    let call := c.rpcOp op attempts
    ⟨call.result.map fun resp => [resp], call.client, call.log, call.waits⟩
  | ops => c.pipelineRetry ops attempts

def rpcPipelineChunks (c : TimedClient) :
    List (List Op) → List (List Attempt) → TimedCall (Except String (List Response))
  | [], _ => ⟨.ok [], c, [], []⟩
  | chunk :: rest, script =>
    let call := c.rpcPipelineChunk chunk (script.headD [])
    match call.result with
    | .error error => { call with result := .error error }
    | .ok resps =>
      let more := call.client.rpcPipelineChunks rest script.tail
      ⟨more.result.map (resps ++ ·), more.client, call.log ++ more.log, call.waits ++ more.waits⟩

/-- `rpc_pipeline`; `script` holds the attempts of each piece that is sent. -/
def rpcPipeline (c : TimedClient) (ops : List Op) (script : List (List Attempt)) :
    TimedCall (Except String (List Response)) :=
  if MAX_MAILBOX_DEPTH < ops.length then
    c.rpcPipelineChunks (chunks MAX_MAILBOX_DEPTH ops) script
  else c.rpcPipelineChunk ops (script.headD [])

/-- The client without its timeouts. -/
def untimed (c : TimedClient) : AgentClient := ⟨c.addr, c.nextId, c.session.isSome⟩

end TimedClient

def TimedCall.untimed {α : Type} (call : TimedCall α) : Call α :=
  ⟨call.result, call.client.untimed, call.log⟩

namespace TimedClient

theorem untimed_roundtripLoop (id : Nat) (op : Op) (timeout : Nat) (attempts : List Attempt) :
    ∀ (c : TimedClient) (lastErr : String),
      (c.roundtripLoop id op timeout lastErr attempts).untimed =
        c.untimed.roundtripLoop id op lastErr attempts := by
  induction attempts with
  | nil => exact fun _ _ => rfl
  | cons a attempts ih =>
    intro c lastErr
    have hopen : (if c.untimed.session then a.setTimeout else a.connect) =
        if c.session.isSome then a.setTimeout else a.connect := rfl
    rw [roundtripLoop, AgentClient.roundtripLoop, hopen]
    cases hstart : if c.session.isSome then a.setTimeout else a.connect with
    | error error => exact ih _ error
    | ok =>
      dsimp only
      cases hex : exchangeWire a id op with
      | mk result log =>
        cases result with
        | ok resp => rfl
        | error error =>
          exact congrArg (fun rest : Call _ => { rest with log := log ++ rest.log }) (ih _ error)

theorem untimed_rpcOp (c : TimedClient) (op : Op) (attempts : List Attempt) :
    (c.rpcOp op attempts).untimed = c.untimed.rpcOp op attempts :=
  untimed_roundtripLoop _ _ _ attempts _ _

theorem untimed_pipelineLoop (startId : Nat) (ops : List Op) (attempts : List Attempt) :
    ∀ (c : TimedClient) (lastErr : String),
      (c.pipelineLoop startId ops lastErr attempts).untimed =
        c.untimed.pipelineLoop startId ops lastErr attempts := by
  induction attempts with
  | nil => exact fun _ _ => rfl
  | cons a attempts ih =>
    intro c lastErr
    have hopen : (if c.untimed.session then .ok () else a.connect) =
        if c.session.isSome then .ok () else a.connect := rfl
    rw [pipelineLoop, AgentClient.pipelineLoop, hopen]
    cases hstart : if c.session.isSome then .ok () else a.connect with
    | error error => exact ih _ error
    | ok =>
      dsimp only
      cases hex : exchangePipeline a startId ops with
      | mk result log =>
        cases result with
        | ok resps => rfl
        | error error =>
          cases error with
          | fatal error => rfl
          | retryable error =>
            exact congrArg (fun rest : Call _ => { rest with log := log ++ rest.log }) (ih _ error)

theorem untimed_rpcPipelineChunk (c : TimedClient) (ops : List Op) (attempts : List Attempt) :
    (c.rpcPipelineChunk ops attempts).untimed = c.untimed.rpcPipelineChunk ops attempts := by
  match ops with
  | [] => rfl
  | [op] =>
    exact congrArg (fun call : Call (Except String Response) =>
      (⟨call.result.map fun resp => [resp], call.client, call.log⟩ : Call _))
      (untimed_rpcOp c op attempts)
  | _ :: _ :: _ => exact untimed_pipelineLoop _ _ attempts _ _

theorem untimed_rpcPipelineChunks (pieces : List (List Op)) :
    ∀ (c : TimedClient) (script : List (List Attempt)),
      (c.rpcPipelineChunks pieces script).untimed = c.untimed.rpcPipelineChunks pieces script := by
  induction pieces with
  | nil => exact fun _ _ => rfl
  | cons piece rest ih =>
    intro c script
    have hcall := untimed_rpcPipelineChunk c piece (script.headD [])
    rw [rpcPipelineChunks, AgentClient.rpcPipelineChunks, ← hcall]
    dsimp only [TimedCall.untimed]
    cases hres : (c.rpcPipelineChunk piece (script.headD [])).result with
    | error error => rfl
    | ok resps =>
      dsimp only
      rw [← ih]
      rfl

/-- Timeouts do not change what a call does on the wire. -/
theorem untimed_rpcPipeline (c : TimedClient) (ops : List Op) (script : List (List Attempt)) :
    (c.rpcPipeline ops script).untimed = c.untimed.rpcPipeline ops script := by
  unfold rpcPipeline AgentClient.rpcPipeline
  split_ifs
  · exact untimed_rpcPipelineChunks _ _ _
  · exact untimed_rpcPipelineChunk _ _ _

end TimedClient

section Waits

variable {a : Attempt} {op : Op} {ops : List Op} {t : Nat} {w : ReplyWait}

theorem eq_of_mem_wireWaits (h : w ∈ wireWaits a op t) : w = ⟨op, t⟩ := by
  unfold wireWaits at h
  split at h
  · exact List.mem_singleton.mp h
  · cases h

theorem mem_readWaits {i : Nat} (h : w ∈ readWaits a t i ops) :
    w.op ∈ ops ∧ w.readTimeout = t := by
  induction ops generalizing i with
  | nil => cases h
  | cons op ops ih =>
    rw [readWaits] at h
    rcases List.mem_cons.mp h with rfl | h
    · exact ⟨List.mem_cons_self, rfl⟩
    · cases hread : a.read i with
      | line resp =>
        rw [hread] at h
        obtain ⟨hop, ht⟩ := ih h
        exact ⟨List.mem_cons_of_mem _ hop, ht⟩
      | closed => simp [hread] at h
      | error error => simp [hread] at h
      | malformed error => simp [hread] at h

theorem mem_pipelineWaits (h : w ∈ pipelineWaits a ops t) : w.op ∈ ops ∧ w.readTimeout = t := by
  unfold pipelineWaits at h
  split at h
  · exact mem_readWaits h
  · cases h

end Waits

namespace TimedClient

/-- An op that is sent alone is waited for as long as it needs, and its timeout stays with the
session. -/
structure Alone (c : TimedClient) (op : Op) (t : Nat)
    (call : TimedCall (Except String Response)) : Prop where
  timeout : call.client.timeout = c.timeout
  session : ∀ resp, call.result = .ok resp → call.client.session = some t
  after : call.client.session = c.session ∨ call.client.session = none ∨
    call.client.session = some t
  waits : ∀ w ∈ call.waits, w = ⟨op, t⟩

theorem alone_roundtripLoop (id : Nat) (op : Op) (t : Nat) (attempts : List Attempt) :
    ∀ (c : TimedClient) (lastErr : String),
      Alone c op t (c.roundtripLoop id op t lastErr attempts) := by
  induction attempts with
  | nil =>
    intro c lastErr
    rw [roundtripLoop]
    refine ⟨rfl, fun _ h => ?_, .inl rfl, fun _ h => ?_⟩
    · cases h
    · cases h
  | cons a attempts ih =>
    intro c lastErr
    have hdropped (error : String) : Alone c op t
        (roundtripLoop { c with session := none } id op t error attempts) := by
      obtain ⟨ht, hs, hafter, hw⟩ := ih { c with session := none } error
      exact ⟨ht, hs, .inr (hafter.elim .inl fun h => h), hw⟩
    rw [roundtripLoop]
    cases hstart : if c.session.isSome then a.setTimeout else a.connect with
    | error error => exact hdropped error
    | ok =>
      dsimp only
      cases hex : exchangeWire a id op with
      | mk result log =>
        cases result with
        | ok resp =>
          exact ⟨rfl, fun _ _ => rfl, .inr (.inr rfl), fun _ h => eq_of_mem_wireWaits h⟩
        | error error =>
          obtain ⟨ht, hs, hafter, hw⟩ := hdropped error
          refine ⟨ht, hs, hafter, fun w h => ?_⟩
          rcases List.mem_append.mp h with h | h
          · exact eq_of_mem_wireWaits h
          · exact hw w h

theorem alone_rpcOp (c : TimedClient) (op : Op) (attempts : List Attempt) :
    Alone c op (timeoutFor c.timeout op) (c.rpcOp op attempts) := by
  obtain ⟨ht, hs, hafter, hw⟩ := alone_roundtripLoop c.nextId op (timeoutFor c.timeout op) attempts
    { c with nextId := c.nextId + 1 } ""
  exact ⟨ht, hs, hafter, hw⟩

/-- A reply in a pipeline is waited for by the session that was there, or by one opened with the
timeout of the client. -/
structure Piped (c : TimedClient) (ops : List Op)
    (call : TimedCall (Except String (List Response))) : Prop where
  timeout : call.client.timeout = c.timeout
  session : ∀ resps, call.result = .ok resps →
    call.client.session = some (c.session.getD c.timeout) ∨ call.client.session = some c.timeout
  waits : ∀ w ∈ call.waits, w.op ∈ ops ∧
    (w.readTimeout = c.session.getD c.timeout ∨ w.readTimeout = c.timeout)

theorem piped_pipelineLoop (startId : Nat) (ops : List Op) (attempts : List Attempt) :
    ∀ (c : TimedClient) (lastErr : String),
      Piped c ops (c.pipelineLoop startId ops lastErr attempts) := by
  induction attempts with
  | nil =>
    intro c lastErr
    rw [pipelineLoop]
    refine ⟨rfl, fun _ h => ?_, fun _ h => ?_⟩
    · cases h
    · cases h
  | cons a attempts ih =>
    intro c lastErr
    have hfresh (error : String) : Piped c ops
        (pipelineLoop { c with session := none } startId ops error attempts) := by
      obtain ⟨ht, hs, hw⟩ := ih { c with session := none } error
      exact ⟨ht, fun resps h => .inr (or_self_iff.mp (hs resps h)),
        fun w h => ⟨(hw w h).1, .inr (or_self_iff.mp (hw w h).2)⟩⟩
    have hwait (w : ReplyWait) (h : w ∈ pipelineWaits a ops (c.session.getD c.timeout)) :
        w.op ∈ ops ∧ (w.readTimeout = c.session.getD c.timeout ∨ w.readTimeout = c.timeout) :=
      ⟨(mem_pipelineWaits h).1, .inl (mem_pipelineWaits h).2⟩
    rw [pipelineLoop]
    cases hstart : if c.session.isSome then .ok () else a.connect with
    | error error => exact hfresh error
    | ok =>
      dsimp only
      cases hex : exchangePipeline a startId ops with
      | mk result log =>
        cases result with
        | ok resps => exact ⟨rfl, fun _ _ => .inl rfl, hwait⟩
        | error error =>
          cases error with
          | fatal error => exact ⟨rfl, fun _ h => (by cases h), hwait⟩
          | retryable error =>
            obtain ⟨ht, hs, hw⟩ := hfresh error
            refine ⟨ht, hs, fun w h => ?_⟩
            rcases List.mem_append.mp h with h | h
            · exact hwait w h
            · exact hw w h

theorem piped_pipelineRetry (c : TimedClient) (ops : List Op) (attempts : List Attempt) :
    Piped c ops (c.pipelineRetry ops attempts) := by
  have h := piped_pipelineLoop c.nextId ops attempts { c with nextId := c.nextId + ops.length } ""
  exact ⟨h.timeout, h.session, h.waits⟩

theorem timeout_rpcPipelineChunk (c : TimedClient) (ops : List Op) (attempts : List Attempt) :
    (c.rpcPipelineChunk ops attempts).client.timeout = c.timeout := by
  match ops with
  | [] => rfl
  | [op] => exact (alone_rpcOp c op attempts).timeout
  | op :: op' :: ops => exact (piped_pipelineRetry c (op :: op' :: ops) attempts).timeout

theorem timeout_rpcPipelineChunks (sent : List (List Op)) :
    ∀ (c : TimedClient) (script : List (List Attempt)),
      (c.rpcPipelineChunks sent script).client.timeout = c.timeout := by
  induction sent with
  | nil => exact fun _ _ => rfl
  | cons piece rest ih =>
    intro c script
    have hpiece := timeout_rpcPipelineChunk c piece (script.headD [])
    rw [rpcPipelineChunks]
    cases (c.rpcPipelineChunk piece (script.headD [])).result with
    | error error => exact hpiece
    | ok resps => exact (ih _ _).trans hpiece

/-- A call leaves the timeout of the client as it is. -/
theorem timeout_rpcPipeline (c : TimedClient) (ops : List Op) (script : List (List Attempt)) :
    (c.rpcPipeline ops script).client.timeout = c.timeout := by
  unfold rpcPipeline
  split_ifs
  · exact timeout_rpcPipelineChunks _ _ _
  · exact timeout_rpcPipelineChunk _ _ _

end TimedClient

end GpuiAgent
