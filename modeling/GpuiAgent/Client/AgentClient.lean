import GpuiAgent.Framework.Chunks
import GpuiAgent.Host.Mailbox

namespace GpuiAgent

open Framework

/-- What becomes of one request line handed to the socket. -/
inductive WriteOutcome where
  | complete
  | cut (error : String)
  | unsent (error : String)
  deriving DecidableEq

/-- What the client reads in place of a reply line. -/
inductive ReadOutcome where
  | line (resp : Response)
  | closed
  | error (error : String)
  | malformed (error : String)

/-- How the connection behaves during one attempt of a call, line by line. -/
structure Attempt where
  connect : Except String Unit
  setTimeout : Except String Unit
  write : Nat → WriteOutcome
  flush : Except String Unit
  read : Nat → ReadOutcome

/-- A request line of which some bytes went out. -/
structure LineWrite where
  id : Nat
  op : Op
  complete : Bool
  deriving DecidableEq

structure AgentClient where
  addr : String
  nextId : Nat
  session : Bool

/-- The result of a call, the client after it, and the lines it wrote on any connection. -/
structure Call (α : Type) where
  result : α
  client : AgentClient
  log : List LineWrite

/-- `LiveSession::exchange_wire`. -/
def exchangeWire (a : Attempt) (id : Nat) (op : Op) : Except String Response × List LineWrite :=
  match a.write 0 with
  | .unsent error => (.error error, [])
  | .cut error => (.error error, [⟨id, op, false⟩])
  | .complete =>
    let result := match a.flush, a.read 0 with
      | .error error, _ => .error error
      | .ok (), .line resp => .ok resp
      | .ok (), .closed => .error "connection closed"
      | .ok (), .error error | .ok (), .malformed error => .error error
    (result, [⟨id, op, true⟩])

inductive PipelineError where
  | retryable (error : String)
  | fatal (error : String)

/-- Write the lines from index `i` on; only a failure of the first may be retried. -/
def writeLines (a : Attempt) (startId : Nat) :
    Nat → List Op → Except PipelineError Unit × List LineWrite
  | _, [] => (.ok (), [])
  | i, op :: ops =>
    let failed := fun error => if 0 < i then PipelineError.fatal error else .retryable error
    match a.write i with
    | .complete =>
      let (result, log) := writeLines a startId (i + 1) ops
      (result, ⟨startId + i, op, true⟩ :: log)
    | .cut error => (.error (failed error), [⟨startId + i, op, false⟩])
    | .unsent error => (.error (failed error), [])

def pipelineEof (partial' : List Response) : PipelineError :=
  match partial'.find? fun resp => !resp.ok with
  | some resp => .fatal (resp.error.getD "connection closed")
  | none => .fatal "connection closed"

def readLines (a : Attempt) :
    Nat → List Op → List Response → Except PipelineError (List Response)
  | _, [], out => .ok out
  | i, _ :: ops, out => match a.read i with
    | .line resp => readLines a (i + 1) ops (out ++ [resp])
    | .closed => .error (pipelineEof out)
    | .error error | .malformed error => .error (.fatal error)

/-- `LiveSession::exchange_pipeline`. -/
def exchangePipeline (a : Attempt) (startId : Nat) (ops : List Op) :
    Except PipelineError (List Response) × List LineWrite :=
  match writeLines a startId 0 ops with
  | (.error error, log) => (.error error, log)
  | (.ok (), log) => match a.flush with
    | .error error => (.error (.fatal error), log)
    | .ok () => (readLines a 0 ops [], log)

namespace AgentClient

def connectFailed (addr lastErr : String) : String := s!"connect {addr} failed: {lastErr}"

/-- The attempts of one round trip, in order, for as long as the deadline allows. Every failed
attempt drops the session and is followed by the next one. -/
def roundtripLoop (c : AgentClient) (id : Nat) (op : Op) (lastErr : String) :
    List Attempt → Call (Except String Response)
  | [] => ⟨.error (connectFailed c.addr lastErr), c, []⟩
  | a :: attempts => match if c.session then a.setTimeout else a.connect with
    | .error error => roundtripLoop { c with session := false } id op error attempts
    | .ok () => match exchangeWire a id op with
      | (.ok resp, log) => ⟨.ok resp, { c with session := true }, log⟩
      | (.error error, log) =>
        let rest := roundtripLoop { c with session := false } id op error attempts
        { rest with log := log ++ rest.log }

/-- `rpc_op`. -/
def rpcOp (c : AgentClient) (op : Op) (attempts : List Attempt) : Call (Except String Response) :=
  roundtripLoop { c with nextId := c.nextId + 1 } c.nextId op "" attempts

/-- The attempts of one pipeline; a fatal error ends it. -/
def pipelineLoop (c : AgentClient) (startId : Nat) (ops : List Op) (lastErr : String) :
    List Attempt → Call (Except String (List Response))
  | [] => ⟨.error (connectFailed c.addr lastErr), c, []⟩
  | a :: attempts => match if c.session then .ok () else a.connect with
    | .error error => pipelineLoop { c with session := false } startId ops error attempts
    | .ok () => match exchangePipeline a startId ops with
      | (.ok resps, log) => ⟨.ok resps, { c with session := true }, log⟩
      | (.error (.fatal error), log) => ⟨.error error, { c with session := false }, log⟩
      | (.error (.retryable error), log) =>
        let rest := pipelineLoop { c with session := false } startId ops error attempts
        { rest with log := log ++ rest.log }

def pipelineRetry (c : AgentClient) (ops : List Op) (attempts : List Attempt) :
    Call (Except String (List Response)) :=
  pipelineLoop { c with nextId := c.nextId + ops.length } c.nextId ops "" attempts

/-- `rpc_pipeline` on at most `MAX_MAILBOX_DEPTH` ops. -/
def rpcPipelineChunk (c : AgentClient) (ops : List Op) (attempts : List Attempt) :
    Call (Except String (List Response)) :=
  match ops with
  | [] => ⟨.ok [], c, []⟩
  | [op] =>
    let call := c.rpcOp op attempts
    ⟨call.result.map fun resp => [resp], call.client, call.log⟩
  | ops => c.pipelineRetry ops attempts

def rpcPipelineChunks (c : AgentClient) :
    List (List Op) → List (List Attempt) → Call (Except String (List Response))
  | [], _ => ⟨.ok [], c, []⟩
  | chunk :: rest, script =>
    let call := c.rpcPipelineChunk chunk (script.headD [])
    match call.result with
    | .error error => { call with result := .error error }
    | .ok resps =>
      let more := call.client.rpcPipelineChunks rest script.tail
      ⟨more.result.map (resps ++ ·), more.client, call.log ++ more.log⟩

/-- `rpc_pipeline`; `script` holds the attempts of each piece that is sent. -/
def rpcPipeline (c : AgentClient) (ops : List Op) (script : List (List Attempt)) :
    Call (Except String (List Response)) :=
  if MAX_MAILBOX_DEPTH < ops.length then
    c.rpcPipelineChunks (chunks MAX_MAILBOX_DEPTH ops) script
  else c.rpcPipelineChunk ops (script.headD [])

end AgentClient

end GpuiAgent
