import GpuiAgent.Server.Session

namespace GpuiAgent

structure ServerLimits where
  maxLineBytes : Nat
  maxConnections : Nat

/-- A connection thread: the reads it has still to do, and where its loop stands. -/
structure ConnThread (φ : Type) where
  nonce : Option (List UInt8)
  lines : List LineRead
  phase : φ

/-- The thread of a new connection, which ends at once if its session cannot begin. -/
def ConnThread.begin {φ : Type} (token : Option String) (limits : ServerLimits)
    (randomNonce : Option (List UInt8)) (input : Incoming) (reading closed : φ) : ConnThread φ :=
  match beginSession token randomNonce with
  | none => ⟨none, [], closed⟩
  | some nonce => ⟨nonce, incomingLines limits.maxLineBytes input.bytes.length input, reading⟩

/-- One round of a handler's loop, up to the request it serves: the thread goes on reading, it ends,
or it has a request. -/
def ConnThread.next {φ : Type} (env : Env) (parse : List UInt8 → Except String Request)
    (token : Option String) (thread : ConnThread φ) (closed : φ) :
    ConnThread φ × Option Request :=
  match thread.lines with
  | [] => ({ thread with phase := closed }, none)
  | line :: lines => match judgeLine env parse token thread.nonce line with
    | .skip => ({ thread with lines }, none)
    | .refuse _ => ({ thread with lines := [], phase := closed }, none)
    | .allow req => ({ thread with lines }, some req)

/-- Where the loop of `handle_stream_host` stands. -/
inductive HostPhase where
  | reading (cache : TreeCache)
  | replying (cache : TreeCache) (req : Request) (resp : Response)
  | closed

/-- `serve_host`: a host behind a lock and the threads of its connections. -/
structure HostServer (σ : Type) where
  app : σ
  threads : List (ConnThread HostPhase) := []
  shutdown : Bool := false

/-- A step of one of the threads. The accept loop may be past its look at the flag when another
thread sets it, so that it accepts at any time. `react` is a change that no connection asks for. -/
inductive HostEvent (ι : Type) where
  | accept (randomNonce : Option (List UInt8)) (input : Incoming)
  | line (i : Nat) (polls : Nat)
  | settle (i : Nat)
  | react (input : ι)

section Host

variable {σ ι : Type} (env : Env) (parse : List UInt8 → Except String Request)
  (token : Option String) (limits : ServerLimits) (host : AgentHost σ) (react : σ → ι → σ)

namespace HostServer

variable (s : HostServer σ) (i : Nat)

def accept (randomNonce : Option (List UInt8)) (input : Incoming) : HostServer σ :=
  let inflight := s.threads.countP fun thread => match thread.phase with
    | .closed => false
    | _ => true
  if limits.maxConnections ≤ inflight then s
  else
    let thread := .begin token limits randomNonce input (.reading {}) .closed
    { s with threads := s.threads ++ [thread] }

/-- The next round of thread `i`, and a request it serves under the host's lock. -/
def line (polls : Nat) : HostServer σ :=
  match s.threads[i]? with
  | none => s
  | some thread => match thread.phase with
    | .reading cache =>
      let (thread, req) := thread.next env parse token .closed
      match req with
      | none => { s with threads := s.threads.set i thread }
      | some req =>
        -- the lock is held for this request alone
        let (resp, app, cache) :=
          handleRequestCached env host polls s.app cache req token thread.nonce
        let thread := { thread with phase := .replying cache req resp }
        { s with app, threads := s.threads.set i thread }
    | _ => s

/-- Thread `i` writes its reply, and the request and the reply decide whether the server goes on. -/
def settle : HostServer σ :=
  match s.threads[i]? with
  | none => s
  | some thread => match thread.phase with
    | .replying cache req resp =>
      -- true for a `Shutdown` whatever its reply says
      if endsSession req resp then
        let thread := { thread with lines := [], phase := .closed }
        { s with threads := s.threads.set i thread, shutdown := true }
      else { s with threads := s.threads.set i { thread with phase := .reading cache } }
    | _ => s

def step (s : HostServer σ) : HostEvent ι → HostServer σ
  | .accept randomNonce input => s.accept token limits randomNonce input
  | .line i polls => s.line env parse token host i polls
  | .settle i => s.settle i
  | .react input => { s with app := react s.app input }

end HostServer

end Host

/-- Where the loop of `handle_stream_mailbox` stands. -/
inductive MailboxPhase where
  | reading
  | waiting (req : Request) (ticket : Nat)
  | polling (req : Request) (spec : AssertSpec) (call : WaitUntilCall)
  | replying (req : Request) (resp : Response)
  | closed

/-- `serve_mailbox`: the mailbox with its UI thread and the threads of the connections. -/
structure MailboxListener (σ : Type) where
  server : MailboxServer σ
  threads : List (ConnThread MailboxPhase) := []
  shutdown : Bool := false

/-- What the UI thread does. -/
inductive UiEvent (ι : Type) where
  | take
  | serve
  | finish
  | react (input : ι)

def UiEvent.toMailbox {ι : Type} : UiEvent ι → MailboxEvent ι
  | take => .take
  | serve => .serve
  | finish => .finish
  | react input => .react input

/-- A step of one of the threads: `poll` looks at a reply channel, with its time up or not, and
`late` says that the deadline of a `wait_until` has passed. -/
inductive ListenerEvent (ι : Type) where
  | accept (randomNonce : Option (List UInt8)) (input : Incoming)
  | line (i : Nat)
  | poll (i : Nat) (expired late : Bool)
  | settle (i : Nat)
  | ui (e : UiEvent ι)

/-- The reply as it is written: the `hello` in it says what the server asks for. -/
def Response.withAuth (resp : Response) (token : Option String) : Response :=
  { resp with
    hello := resp.hello.map fun hello => { hello with auth := .fromTokenConfigured token } }

namespace MailboxListener

variable {σ ι : Type} (env : Env) (parse : List UInt8 → Except String Request)
  (token : Option String) (limits : ServerLimits) (ui : UiThread σ ι)

section Step

variable (s : MailboxListener σ) (i : Nat)

def accept (randomNonce : Option (List UInt8)) (input : Incoming) : MailboxListener σ :=
  let inflight := s.threads.countP fun thread => match thread.phase with
    | .closed => false
    | _ => true
  if limits.maxConnections ≤ inflight then s
  else
    let thread := .begin token limits randomNonce input .reading .closed
    { s with threads := s.threads ++ [thread] }

/-- The next round of thread `i`; a request is posted, a `wait_until` begins to poll. -/
def line : MailboxListener σ :=
  match s.threads[i]? with
  | none => s
  | some thread => match thread.phase with
    | .reading =>
      let (thread, req) := thread.next env parse token .closed
      match req with
      | none => { s with threads := s.threads.set i thread }
      | some req => match req.op with
        | .waitUntil _ spec =>
          let thread := { thread with phase := .polling req spec {} }
          { s with threads := s.threads.set i thread }
        | _ =>
          let thread := { thread with phase := .waiting req s.server.requests.length }
          { s with server := s.server.push req, threads := s.threads.set i thread }
    | _ => s

/-- Thread `i` looks at the channel of its request, or takes a step of its `wait_until`. -/
def poll (expired late : Bool) : MailboxListener σ :=
  match s.threads[i]? with
  | none => s
  | some thread => match thread.phase with
    | .waiting req ticket =>
      let server := s.server.wait ticket expired
      match server.answers.lookup ticket with
      | none => { s with server }
      | some answer =>
        let resp := match answer with
          | .ok resp => resp
          | .error err => .err "?" err
        let thread := { thread with phase := .replying req (resp.withAuth token) }
        { s with server, threads := s.threads.set i thread }
    | .polling req spec call =>
      -- `wait_until_via_mailbox`, one probe or assert at a time
      let w := Waiting.stepCall req spec ⟨s.server, call⟩ expired late
      let phase := match w.call.phase with
        | .returned resp => .replying req (resp.withAuth token)
        | _ => .polling req spec w.call
      { s with server := w.server, threads := s.threads.set i { thread with phase } }
    | _ => s

def settle : MailboxListener σ :=
  match s.threads[i]? with
  | none => s
  | some thread => match thread.phase with
    | .replying req resp =>
      if endsSession req resp then
        let thread := { thread with lines := [], phase := .closed }
        { s with threads := s.threads.set i thread, shutdown := true }
      else { s with threads := s.threads.set i { thread with phase := .reading } }
    | _ => s

end Step

def step (s : MailboxListener σ) : ListenerEvent ι → MailboxListener σ
  | .accept randomNonce input => s.accept token limits randomNonce input
  | .line i => s.line env parse token i
  | .poll i expired late => s.poll token i expired late
  | .settle i => s.settle i
  | .ui e => { s with server := s.server.step ui e.toMailbox }

end MailboxListener

end GpuiAgent
