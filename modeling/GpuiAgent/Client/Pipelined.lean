import GpuiAgent.Client.Delivery
import GpuiAgent.Client.Wire
import GpuiAgent.Host.SnapshotCache

namespace GpuiAgent

open Framework

/-- The lines of a call whose ids start at `id`, one for each op. -/
def written : (id : Nat) → List Op → List LineWrite
  | _, [] => []
  | id, op :: ops => ⟨id, op, true⟩ :: written (id + 1) ops

theorem written_length (ops : List Op) : ∀ id, (written id ops).length = ops.length := by
  induction ops with
  | nil => exact fun _ => rfl
  | cons op ops ih => exact fun id => congrArg (· + 1) (ih (id + 1))

theorem written_append (ops ops' : List Op) : ∀ id,
    written id (ops ++ ops') = written id ops ++ written (id + ops.length) ops' := by
  induction ops with
  | nil => exact fun _ => rfl
  | cons op ops ih =>
    intro id
    rw [List.cons_append, written, ih (id + 1), written, List.cons_append, List.length_cons,
      Nat.add_assoc, Nat.add_comm 1]

/-- An attempt on a connection where nothing fails or times out: once host and client have nothing
left to do, in whatever order they came to it, the client has read what the host replied. -/
structure Reliable {σ : Type} (conn : HostConnection σ) (state state' : SessionState σ)
    (log : List LineWrite) (a : Attempt) : Prop where
  connect : a.connect = .ok ()
  setTimeout : a.setTimeout = .ok ()
  write : ∀ i, a.write i = .complete
  flush : a.flush = .ok ()
  carried : ∃ p : Pipe (List UInt8) Response (SessionState σ),
    Relation.ReflTransGen (Pipe.Step conn.serve)
      { unsent := log.map conn.line, server := some state } p ∧
    p.Settled conn.serve ∧ p.server = some state' ∧ ∀ i, a.read i = conn.codec.reads p.got i

/-- The pieces of a call are sent on one connection, each with an attempt on which nothing fails;
what would come after that attempt is left open. -/
inductive Carried {σ : Type} (conn : HostConnection σ) :
    SessionState σ → Nat → List (List Op) → List (List Attempt) → SessionState σ → Prop where
  | nil {state : SessionState σ} {id : Nat} {script : List (List Attempt)} :
    Carried conn state id [] script state
  | cons {state next final : SessionState σ} {id : Nat} {ops : List Op} {pieces : List (List Op)}
      {a : Attempt} {later : List Attempt} {script : List (List Attempt)} :
    Reliable conn state next (written id ops) a →
    Carried conn next (id + ops.length) pieces script final →
    Carried conn state id (ops :: pieces) ((a :: later) :: script) final

namespace AgentClient

/-- `rpc_op` on each op in turn, with the attempts of each call. -/
def rpcEach (c : AgentClient) : List Op → List (List Attempt) →
    Call (List (Except String Response))
  | [], _ => ⟨[], c, []⟩
  | op :: ops, script =>
    let call := c.rpcOp op (script.headD [])
    let more := call.client.rpcEach ops script.tail
    ⟨call.result :: more.result, more.client, call.log ++ more.log⟩

/-- A client after all these ops have been answered. -/
def answered (c : AgentClient) (ops : List Op) : AgentClient :=
  { c with nextId := c.nextId + ops.length, session := c.session || !ops.isEmpty }

theorem answered_append (c : AgentClient) (ops ops' : List Op) :
    (c.answered ops).answered ops' = c.answered (ops ++ ops') := by
  cases ops with
  | nil => simp [answered]
  | cons op ops => simp [answered, Nat.add_assoc, Nat.add_comm 1]

end AgentClient

section Reliable

variable {σ : Type} {conn : HostConnection σ} {state state' : SessionState σ}
  {log : List LineWrite} {a : Attempt}

theorem Reliable.spec (h : Reliable conn state state' log a) :
    (conn.serveLog (some state) log).2 = some state' ∧
      ∀ i, a.read i = conn.codec.reads (conn.serveLog (some state) log).1 i := by
  obtain ⟨p, hrun, hsettled, hserver, hread⟩ := h.carried
  have hgot := Pipe.got_of_run hrun hsettled
  unfold HostConnection.serveLog
  rw [← hgot]
  exact ⟨hserver, hread⟩

theorem Reliable.length (h : Reliable conn state state' log a) :
    (conn.serveLog (some state) log).1.length = log.length :=
  conn.serveLog_length log (Option.isSome_iff_exists.mpr ⟨state', h.spec.1⟩)

theorem exists_reliable (h : conn.StaysOpen state log) :
    ∃ a state', Reliable conn state state' log a := by
  obtain ⟨p, hrun, hsettled⟩ := @Pipe.exists_settled _ _ _ conn.serve
    { unsent := log.map conn.line, server := some state }
  have hgot := Pipe.got_of_run hrun hsettled
  obtain ⟨state', hstate⟩ := Option.isSome_iff_exists.mp h
  have hserver : p.server = some state' := by
    rw [← hstate]
    exact congrArg Prod.snd hgot
  exact ⟨⟨.ok (), .ok (), fun _ => .complete, .ok (), conn.codec.reads p.got⟩, state',
    rfl, rfl, fun _ => rfl, rfl, p, hrun, hsettled, hserver, fun _ => rfl⟩

theorem serveLog_append (conn : HostConnection σ) (state : Option (SessionState σ))
    (log log' : List LineWrite) : conn.serveLog state (log ++ log') =
      ((conn.serveLog state log).1 ++ (conn.serveLog (conn.serveLog state log).2 log').1,
        (conn.serveLog (conn.serveLog state log).2 log').2) := by
  unfold HostConnection.serveLog
  rw [List.map_append, serveAll_append]

/-- A connection that stays open over all the pieces of a call can carry them. -/
theorem exists_carried (pieces : List (List Op)) : ∀ {state : SessionState σ} {id : Nat},
    conn.StaysOpen state (written id pieces.flatten) →
      ∃ script final, Carried conn state id pieces script final := by
  induction pieces with
  | nil => exact fun {state} _ _ => ⟨[], state, .nil⟩
  | cons ops pieces ih =>
    intro state id h
    rw [List.flatten_cons, written_append] at h
    unfold HostConnection.StaysOpen at h
    have hops : conn.StaysOpen state (written id ops) := by
      unfold HostConnection.serveLog at h
      rw [List.map_append] at h
      exact serveAll_isSome_left _ h
    obtain ⟨a, next, ha⟩ := exists_reliable hops
    rw [serveLog_append, ha.spec.1] at h
    obtain ⟨script, final, hrest⟩ := ih h
    exact ⟨(a :: []) :: script, final, .cons ha hrest⟩

end Reliable

namespace AgentClient

section Carry

variable {σ : Type} {conn : HostConnection σ}

theorem writeLines_complete {a : Attempt} (h : ∀ i, a.write i = .complete) (startId : Nat)
    (ops : List Op) : ∀ i, writeLines a startId i ops = (.ok (), written (startId + i) ops) := by
  induction ops with
  | nil => exact fun _ => rfl
  | cons op ops ih =>
    intro i
    simp only [writeLines, h, ih, written, Nat.add_assoc]

theorem readLines_replies {a : Attempt} (ops : List Op) : ∀ {i : Nat} {out resps : List Response},
    resps.length = ops.length → (∀ j resp, resps[j]? = some resp → a.read (i + j) = .line resp) →
      readLines a i ops out = .ok (out ++ resps) := by
  induction ops with
  | nil =>
    intro i out resps hlen _
    rw [List.length_eq_zero_iff.mp hlen, List.append_nil]
    rfl
  | cons op ops ih =>
    intro i out resps hlen hread
    cases resps with
    | nil => simp at hlen
    | cons resp resps =>
      have hfirst : a.read i = .line resp := hread 0 resp rfl
      rw [readLines, hfirst]
      dsimp only
      rw [@ih (i + 1) (out ++ [resp]) resps (by simpa using hlen), List.append_assoc,
        List.singleton_append]
      intro j r hj
      rw [Nat.add_assoc, Nat.add_comm 1]
      exact hread (j + 1) r hj

section Piece

variable {state state' : SessionState σ} {a : Attempt}

/-- A one-op call on a reliable connection gets the host's reply at its first attempt. -/
theorem rpcOp_reliable (c : AgentClient) (op : Op) (later : List Attempt)
    (h : Reliable conn state state' (written c.nextId [op]) a)
    (hread : ∀ r ∈ (conn.serveLog (some state) (written c.nextId [op])).1, conn.codec.Readable r) :
    ∃ resp, (conn.serveLog (some state) (written c.nextId [op])).1 = [resp] ∧
      c.rpcOp op (a :: later) =
        ⟨.ok (conn.codec.received resp), c.answered [op], written c.nextId [op]⟩ := by
  obtain ⟨resp, hresp⟩ :=
    List.length_eq_one_iff.mp (h.length.trans (written_length [op] c.nextId))
  refine ⟨resp, hresp, ?_⟩
  have hline : a.read 0 = .line (conn.codec.received resp) := by
    rw [h.spec.2]
    exact WireCodec.reads_of_readable hread (by rw [hresp]; rfl)
  have hopens : (if c.session then a.setTimeout else a.connect) = .ok () := by
    rw [h.connect, h.setTimeout, ite_self]
  have hwire : exchangeWire a c.nextId op =
      (.ok (conn.codec.received resp), [⟨c.nextId, op, true⟩]) := by
    unfold exchangeWire
    rw [h.write, h.flush, hline]
  unfold rpcOp
  rw [roundtripLoop]
  dsimp only
  rw [hopens]
  dsimp only
  rw [hwire]
  simp [answered, written]

/-- A piece of a pipeline on a reliable connection gets the host's replies. -/
theorem rpcPipelineChunk_reliable (c : AgentClient) (ops : List Op) (hne : ops ≠ [])
    (later : List Attempt) (h : Reliable conn state state' (written c.nextId ops) a)
    (hread : ∀ r ∈ (conn.serveLog (some state) (written c.nextId ops)).1, conn.codec.Readable r) :
    c.rpcPipelineChunk ops (a :: later) =
      ⟨.ok ((conn.serveLog (some state) (written c.nextId ops)).1.map conn.codec.received),
        c.answered ops, written c.nextId ops⟩ := by
  match ops, hne with
  | [op], _ =>
    obtain ⟨resp, hresp, hcall⟩ := c.rpcOp_reliable op later h hread
    unfold rpcPipelineChunk
    dsimp only
    rw [hcall, hresp]
    rfl
  | op :: op' :: ops, _ =>
    have hlen : ((conn.serveLog (some state) (written c.nextId (op :: op' :: ops))).1.map
        conn.codec.received).length = (op :: op' :: ops).length := by
      rw [List.length_map, h.length, written_length]
    have hopens : (if c.session then .ok () else a.connect) = .ok () := by
      rw [h.connect, ite_self]
    have hexchange : exchangePipeline a c.nextId (op :: op' :: ops) =
        (.ok ((conn.serveLog (some state) (written c.nextId (op :: op' :: ops))).1.map
          conn.codec.received), written c.nextId (op :: op' :: ops)) := by
      unfold exchangePipeline
      rw [writeLines_complete h.write, Nat.add_zero]
      dsimp only
      rw [h.flush]
      dsimp only
      rw [readLines_replies _ hlen, List.nil_append]
      intro j back hj
      rw [List.getElem?_map] at hj
      obtain ⟨resp, hresp, rfl⟩ := Option.map_eq_some_iff.mp hj
      rw [Nat.zero_add, h.spec.2]
      exact WireCodec.reads_of_readable hread hresp
    unfold rpcPipelineChunk pipelineRetry
    dsimp only
    rw [pipelineLoop]
    dsimp only
    rw [hopens]
    dsimp only
    rw [hexchange]
    simp [answered]

end Piece

/-- Sent in pieces, the ops get the host's replies to all the lines in turn. -/
theorem rpcPipelineChunks_carried (pieces : List (List Op)) (hne : ∀ ops ∈ pieces, ops ≠ []) :
    ∀ {state final : SessionState σ} {c : AgentClient} {script : List (List Attempt)},
    Carried conn state c.nextId pieces script final →
    (∀ r ∈ (conn.serveLog (some state) (written c.nextId pieces.flatten)).1,
      conn.codec.Readable r) →
    (conn.serveLog (some state) (written c.nextId pieces.flatten)).2 = some final ∧
      c.rpcPipelineChunks pieces script =
        ⟨.ok ((conn.serveLog (some state) (written c.nextId pieces.flatten)).1.map
          conn.codec.received), c.answered pieces.flatten, written c.nextId pieces.flatten⟩ := by
  induction pieces with
  | nil =>
    intro state final c script h _
    cases h
    exact ⟨rfl, by simp [rpcPipelineChunks, answered, HostConnection.serveLog, written]⟩
  | cons ops pieces ih =>
    intro state final c script h hread
    obtain ⟨hops, hpieces⟩ := List.forall_mem_cons.mp hne
    cases h with
    | @cons _ next _ _ _ _ a later script ha hrest =>
      rw [List.flatten_cons, written_append, serveLog_append, ha.spec.1] at hread ⊢
      have hfirst := c.rpcPipelineChunk_reliable ops hops later ha
        fun r hr => hread r (List.mem_append_left _ hr)
      obtain ⟨hfinal, hmore⟩ := @ih hpieces next final (c.answered ops) script hrest
        fun r hr => hread r (List.mem_append_right _ hr)
      refine ⟨hfinal, ?_⟩
      rw [rpcPipelineChunks, List.headD_cons, List.tail_cons, hfirst]
      dsimp only
      rw [hmore, ← answered_append, List.map_append]
      rfl

theorem rpcEach_carried (ops : List Op) :
    ∀ {state final : SessionState σ} {c : AgentClient} {calls : List (List Attempt)},
    Carried conn state c.nextId (ops.map fun op => [op]) calls final →
    (∀ r ∈ (conn.serveLog (some state) (written c.nextId ops)).1, conn.codec.Readable r) →
    (conn.serveLog (some state) (written c.nextId ops)).2 = some final ∧
      c.rpcEach ops calls =
        ⟨((conn.serveLog (some state) (written c.nextId ops)).1.map conn.codec.received).map .ok,
          c.answered ops, written c.nextId ops⟩ := by
  induction ops with
  | nil =>
    intro state final c calls h _
    cases h
    exact ⟨rfl, by simp [rpcEach, answered, HostConnection.serveLog, written]⟩
  | cons op ops ih =>
    intro state final c calls h hread
    cases h with
    | @cons _ next _ _ _ _ a later calls ha hrest =>
      have hsplit : written c.nextId (op :: ops) =
          written c.nextId [op] ++ written (c.nextId + 1) ops := written_append [op] ops c.nextId
      rw [hsplit, serveLog_append, ha.spec.1] at hread ⊢
      obtain ⟨resp, hresp, hfirst⟩ := c.rpcOp_reliable op later ha
        fun r hr => hread r (List.mem_append_left _ hr)
      obtain ⟨hfinal, hmore⟩ := @ih next final (c.answered [op]) calls hrest
        fun r hr => hread r (List.mem_append_right _ hr)
      refine ⟨hfinal, ?_⟩
      rw [rpcEach, List.headD_cons, List.tail_cons, hfirst, hresp]
      dsimp only
      rw [hmore, answered_append]
      rfl

/-- Over a reliable connection that stays open, a pipeline and one call after the other return the
same replies and leave the same client and the same host, whatever the order in which host and
client take their steps. -/
def PipelinesAsEach (conn : HostConnection σ) (c : AgentClient) (state : SessionState σ)
    (ops : List Op) : Prop :=
  ∀ script piped calls each,
    Carried conn state c.nextId (chunks MAX_MAILBOX_DEPTH ops) script piped →
    Carried conn state c.nextId (ops.map fun op => [op]) calls each →
    piped = each ∧ ∃ resps, c.rpcPipeline ops script =
        ⟨.ok resps, c.answered ops, written c.nextId ops⟩ ∧
      c.rpcEach ops calls = ⟨resps.map .ok, c.answered ops, written c.nextId ops⟩

/-- A pipeline of ops of which none closes the session does what one call after the other does,
when the client can read the replies. -/
theorem rpcPipeline_eq_rpcEach (conn : HostConnection σ) (c : AgentClient) (state : SessionState σ)
    (ops : List Op) (hopen : conn.StaysOpen state (written c.nextId ops))
    (hread : ∀ resp ∈ (conn.serveLog (some state) (written c.nextId ops)).1,
      conn.codec.Readable resp) :
    (∃ script piped, Carried conn state c.nextId (chunks MAX_MAILBOX_DEPTH ops) script piped) ∧
    (∃ calls each, Carried conn state c.nextId (ops.map fun op => [op]) calls each) ∧
    PipelinesAsEach conn c state ops := by
  have hchunks : (chunks MAX_MAILBOX_DEPTH ops).flatten = ops := chunks_flatten (by decide) ops
  have hsingles : (ops.map fun op => [op]).flatten = ops := by
    rw [← List.flatMap_def]
    exact List.flatMap_singleton' ops
  refine ⟨exists_carried _ (hchunks.symm ▸ hopen), exists_carried _ (hsingles.symm ▸ hopen), ?_⟩
  intro script piped calls each hpiped heach
  obtain ⟨hfinal, hcall⟩ := rpcPipelineChunks_carried _
    (fun _ => ne_nil_of_mem_chunks (by decide)) hpiped (hchunks.symm ▸ hread)
  obtain ⟨hfinal', hcalls⟩ := rpcEach_carried ops heach hread
  rw [hchunks] at hfinal hcall
  refine ⟨Option.some.inj (hfinal.symm.trans hfinal'), _, ?_, hcalls⟩
  rw [rpcPipeline_eq_chunks]
  exact hcall

end Carry

section Runs

/-- The bytes of an ASCII text, without its control bytes. -/
def textBytes (text : String) : List UInt8 :=
  (text.toList.map fun ch => UInt8.ofNat ch.toNat).filter fun b => 32 ≤ b

def clickLine (id target : String) : List UInt8 :=
  123 :: textBytes
    ("\"v\":2,\"id\":\"" ++ id ++ "\",\"op\":\"click\",\"target\":\"" ++ target ++ "\"\x7d")

/-- The line of a reply with no more than an error. -/
def replyLine (resp : Response) : List UInt8 :=
  123 :: textBytes ("\"v\":2,\"id\":\"" ++ resp.id ++ "\",\"ok\":" ++
    (if resp.ok then "true" else "false") ++ (match resp.error with
      | some error => ",\"error\":\"" ++ error ++ "\""
      | none => "") ++ "\x7d")

theorem le_of_mem_textBytes {text : String} {b : UInt8} (h : b ∈ 123 :: textBytes text) :
    32 ≤ b := by
  rcases List.mem_cons.mp h with rfl | h
  · decide
  · exact of_decide_eq_true (List.mem_filter.mp h).2

def click (target : String) : Op := .click target .semantic none

def parseClick (buf : List UInt8) : Except String Request :=
  if buf = clickLine "1" "todo-add" then .ok (.new "1" (click "todo-add"))
  else if buf = clickLine "2" "todo-list" then .ok (.new "2" (click "todo-list"))
  else .error "expected value"

def parseReply (buf : List UInt8) : Except String Response :=
  if buf = replyLine (.success "1") then .ok (.success "1")
  else if buf = replyLine (.err "2" "not a button") then .ok (.err "2" "not a button")
  else .error "expected value"

/-- Reads and writes two clicks and their replies. -/
def clickCodec : WireCodec where
  request := fun req => match req.op with
    | .click target _ _ => clickLine req.id target
    | _ => 123 :: textBytes "\x7d"
  parseRequest := parseClick
  reply := replyLine
  parseReply := parseReply
  parseChallenge := fun _ => .error "bad challenge: expected value"
  request_plain := by
    intro req b hb
    split at hb
    · exact le_of_mem_textBytes hb
    · exact le_of_mem_textBytes hb
  request_object := by
    intro req
    split
    · rfl
    · rfl
  reply_plain := fun _ _ hb => le_of_mem_textBytes hb

/-- A host that counts clicks, and refuses one of them with an error. -/
def refusingHost (error : String) : AgentHost Nat := { countingHost with
  dispatch := fun n op => match op with
    | .click "todo-list" _ _ => (.error error, n)
    | _ => (.ok .empty, n + 1) }

def clickConn (error : String) : HostConnection Nat where
  env := .bare
  host := refusingHost error
  polls := fun _ => 0
  token := none
  nonce := none
  auth := none
  maxLineBytes := MAX_LINE_BYTES
  codec := clickCodec

theorem serve_click {error id target : String} {w : LineWrite}
    (hline : (clickConn error).line w = clickLine id target)
    (hread : readOf MAX_LINE_BYTES (clickLine id target) = .line (clickLine id target))
    (hparse : parseClick (clickLine id target) = .ok (.new id (click target)))
    (state : SessionState Nat) : (clickConn error).serve state ((clickConn error).line w) =
      (some (.ofDispatch id ((refusingHost error).dispatch state.2.1 (click target)).1),
        some (state.1 + 1, ((refusingHost error).dispatch state.2.1 (click target)).2,
          state.2.2)) := by
  have hauth : authorizeRequest Env.bare (.new id (click target)) none none = .ok () :=
    authorizeRequest_untokened rfl
  have hblank : lineIsBlank (clickLine id target) = false := rfl
  have hjudge : (clickConn error).judge (clickLine id target) =
      .allow (.new id (click target)) := by
    unfold HostConnection.judge
    simp only [clickConn, clickCodec]
    rw [hread]
    exact judgeLine_eq_allow_iff.mpr ⟨_, rfl, hblank, hparse, hauth⟩
  unfold HostConnection.serve
  rw [hline, serveLine_allow hjudge]
  simp only [serveHost, clickConn, handleRequestCached, hauth]
  rfl

theorem line_click (error target : String) {n : Nat} {id : String} (hn : n < 2 ^ 64)
    (hid : n.repr = id) : (clickConn error).line ⟨n, click target, true⟩ = clickLine id target := by
  have hwire : fmtU64 (UInt64.ofNat n) = id := by
    rw [fmtU64_eq_repr, UInt64.toNat_ofNat_of_lt' hn, hid]
  exact congrArg (clickLine · target) hwire

theorem serve_add (error : String) (state : SessionState Nat) : (clickConn error).serve state
    ((clickConn error).line ⟨1, click "todo-add", true⟩) =
      (some (.success "1"), some (state.1 + 1, state.2.1 + 1, state.2.2)) := by
  have hid : (1 : Nat).repr = "1" := rfl
  have hparse : parseClick (clickLine "1" "todo-add") = .ok (.new "1" (click "todo-add")) := by
    rw [parseClick, if_pos rfl]
  exact serve_click (line_click error "todo-add" (by decide) hid) (by decide +kernel) hparse state

theorem serve_list (error : String) (state : SessionState Nat) : (clickConn error).serve state
    ((clickConn error).line ⟨2, click "todo-list", true⟩) =
      (some (.err "2" error), some (state.1 + 1, state.2.1, state.2.2)) := by
  have hparse : parseClick (clickLine "2" "todo-list") = .ok (.new "2" (click "todo-list")) := by
    have hne : clickLine "2" "todo-list" ≠ clickLine "1" "todo-add" := by decide +kernel
    rw [parseClick, if_neg hne, if_pos rfl]
  have hid : (2 : Nat).repr = "2" := rfl
  exact serve_click (line_click error "todo-list" (by decide) hid)
    (by decide +kernel) hparse state

/-- A client that has not connected yet. -/
def newClient : AgentClient := ⟨"127.0.0.1:7878", 1, false⟩

theorem serveLog_clicks (error : String) : (clickConn error).serveLog (some (0, 0, {}))
    (written 1 [click "todo-add", click "todo-list"]) =
      ([.success "1", .err "2" error], some (2, 1, {})) := by
  unfold HostConnection.serveLog
  rw [written, written, written, List.map_cons, List.map_cons, List.map_nil, serveAll_cons,
    serve_add, serveAll_cons, serve_list, serveAll_nil]
  rfl

theorem staysOpen_clicks (error : String) : (clickConn error).StaysOpen (0, 0, {})
    (written 1 [click "todo-add", click "todo-list"]) := by
  unfold HostConnection.StaysOpen
  rw [serveLog_clicks]
  rfl

theorem replyOutcome_success : clickCodec.replyOutcome (.success "1") = .line (.success "1") := by
  have hread : readOf MAX_LINE_BYTES (replyLine (.success "1")) =
      .line (replyLine (.success "1")) := by decide +kernel
  unfold WireCodec.replyOutcome
  rw [show clickCodec.reply = replyLine from rfl, hread]
  simp [WireCodec.readOutcome, WireCodec.parseResponseLine, clickCodec, parseReply]

theorem replyOutcome_refusal : clickCodec.replyOutcome (.err "2" "not a button") =
    .line (.err "2" "not a button") := by
  have hread : readOf MAX_LINE_BYTES (replyLine (.err "2" "not a button")) =
      .line (replyLine (.err "2" "not a button")) := by decide +kernel
  have hne : replyLine (.err "2" "not a button") ≠ replyLine (.success "1") := by decide +kernel
  unfold WireCodec.replyOutcome
  rw [show clickCodec.reply = replyLine from rfl, hread]
  simp [WireCodec.readOutcome, WireCodec.parseResponseLine, clickCodec, parseReply, hne]

/-- Two clicks of which the second is refused. -/
theorem rpcPipeline_eq_rpcEach_clicks : PipelinesAsEach (clickConn "not a button") newClient
    (0, 0, {}) [click "todo-add", click "todo-list"] := by
  refine (rpcPipeline_eq_rpcEach (clickConn "not a button") newClient (0, 0, {}) _
    (staysOpen_clicks _) ?_).2.2
  have hreplies : ((clickConn "not a button").serveLog (some (0, 0, {}))
      (written newClient.nextId [click "todo-add", click "todo-list"])).1 =
        [.success "1", .err "2" "not a button"] := congrArg Prod.fst (serveLog_clicks _)
  rw [hreplies]
  exact List.forall_mem_cons.mpr
    ⟨⟨_, replyOutcome_success⟩, List.forall_mem_singleton.mpr ⟨_, replyOutcome_refusal⟩⟩

theorem textBytes_append (s t : String) : textBytes (s ++ t) = textBytes s ++ textBytes t := by
  simp [textBytes]

/-- An error of a whole line's length. -/
def longError : String := String.ofList (List.replicate MAX_LINE_BYTES 'x')

theorem length_longError : (textBytes longError).length = MAX_LINE_BYTES := by
  simp [textBytes, longError]

theorem readOf_longError (id : String) :
    readOf MAX_LINE_BYTES (replyLine (.err id longError)) = .invalidData "line too long" := by
  refine if_pos ?_
  have hlen := length_longError
  simp only [replyLine, Response.err, textBytes_append, List.length_cons, List.length_append]
  omega

/-- The client cannot read the second reply, and the pipeline returns neither of the two. -/
theorem rpcPipeline_longError {state' : SessionState Nat} {a : Attempt}
    (h : Reliable (clickConn longError) (0, 0, {}) state'
      (written 1 [click "todo-add", click "todo-list"]) a)
    (later : List Attempt) (script : List (List Attempt)) :
    (newClient.rpcPipeline [click "todo-add", click "todo-list"]
      ((a :: later) :: script)).result = .error "line too long" := by
  have hread := h.spec.2
  rw [serveLog_clicks] at hread
  have hfirst : a.read 0 = .line (.success "1") := by
    rw [hread]
    exact (@WireCodec.reads_line clickCodec (.success "1") _ [] (by simp)).trans replyOutcome_success
  have hsecond : a.read 1 = .error "line too long" := by
    rw [hread]
    refine (@WireCodec.reads_line clickCodec _ [] [.success "1"]
      (List.forall_mem_singleton.mpr ⟨_, replyOutcome_success⟩)).trans ?_
    unfold WireCodec.replyOutcome
    rw [show clickCodec.reply = replyLine from rfl, readOf_longError]
    rfl
  have hexchange : (exchangePipeline a 1 [click "todo-add", click "todo-list"]).1 =
      .error (.fatal "line too long") := by
    unfold exchangePipeline
    rw [writeLines_complete h.write, h.flush]
    simp only [readLines, hfirst, hsecond]
  have hloop : newClient.rpcPipeline [click "todo-add", click "todo-list"]
      ((a :: later) :: script) = pipelineLoop ⟨"127.0.0.1:7878", 3, false⟩ 1
        [click "todo-add", click "todo-list"] "" (a :: later) := rfl
  rcases hx : exchangePipeline a 1 [click "todo-add", click "todo-list"] with ⟨result, log⟩
  rw [hx] at hexchange
  obtain rfl := hexchange
  rw [hloop, pipelineLoop]
  dsimp only
  rw [if_neg (by decide), h.connect]
  dsimp only
  rw [hx]

theorem pipeline_loses_replies : ¬ ∀ (conn : HostConnection Nat) (c : AgentClient)
    (state : SessionState Nat) (ops : List Op), conn.StaysOpen state (written c.nextId ops) →
    PipelinesAsEach conn c state ops := by
  intro h
  have hopen := staysOpen_clicks longError
  have hsame := h (clickConn longError) newClient (0, 0, {})
    [click "todo-add", click "todo-list"] hopen
  obtain ⟨script, piped, hpiped⟩ := exists_carried [[click "todo-add", click "todo-list"]] hopen
  obtain ⟨calls, each, heach⟩ := exists_carried [[click "todo-add"], [click "todo-list"]] hopen
  obtain ⟨-, resps, hcall, -⟩ := hsame script piped calls each hpiped heach
  cases hpiped with
  | @cons _ _ _ _ _ _ a later script ha hrest =>
    have hresult := rpcPipeline_longError ha later script
    rw [hcall] at hresult
    cases hresult

end Runs

end AgentClient

end GpuiAgent
