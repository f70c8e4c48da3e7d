import GpuiAgent.Client.AgentClient
import GpuiAgent.Server.Framing

namespace GpuiAgent

open Framework

/-- The loop of `fmt_u64`, with `i` places left in the buffer in front of the digits written. -/
def fmtDigits : (i n : Nat) → List Char → List Char
  | _, 0, out => out
  | 0, _, out => out
  | i + 1, n, out => fmtDigits i (n / 10) (Nat.digitChar (n % 10) :: out)

/-- Decimal `n`, written from the end of a buffer of 20 places. -/
def fmtU64 (n : UInt64) : String :=
  if n = 0 then "0" else String.ofList (fmtDigits 20 n.toNat [])

theorem fmtDigits_eq (i : Nat) : ∀ (n : Nat) (out : List Char), 0 < n → n < 10 ^ i →
    fmtDigits i n out = Nat.toDigits 10 n ++ out := by
  induction i with
  | zero =>
    intro n out hpos hlt
    rw [Nat.pow_zero] at hlt
    omega
  | succ i ih =>
    intro n out hpos hlt
    obtain ⟨n, rfl⟩ : ∃ m, n = m + 1 := ⟨n - 1, by omega⟩
    have hstep : fmtDigits (i + 1) (n + 1) out =
        fmtDigits i ((n + 1) / 10) (Nat.digitChar ((n + 1) % 10) :: out) := rfl
    rw [hstep]
    by_cases hsmall : n + 1 < 10
    · have hdiv : (n + 1) / 10 = 0 := by omega
      rw [hdiv, Nat.toDigits_of_lt_base hsmall, Nat.mod_eq_of_lt hsmall]
      cases i <;> rfl
    · have hdiv : (n + 1) / 10 < 10 ^ i := by
        rw [Nat.pow_succ] at hlt
        omega
      rw [ih _ _ (by omega) hdiv, Nat.toDigits_of_base_le (n := n + 1) (by omega) (by omega)]
      simp

/-- The buffer holds every 64-bit number, and its decimal form is what is written. -/
theorem fmtU64_eq_repr (n : UInt64) : fmtU64 n = n.toNat.repr := by
  unfold fmtU64
  split_ifs with hn
  · obtain rfl := hn
    rfl
  · have hpos : 0 < n.toNat := by
      rw [Nat.pos_iff_ne_zero]
      exact fun h => hn (UInt64.toNat_inj.mp h)
    have hlt : n.toNat < 10 ^ 20 := lt_trans n.toNat_lt (by decide)
    rw [fmtDigits_eq 20 _ _ hpos hlt, List.append_nil, Nat.repr_eq_ofList_toDigits]

structure WireRequest where
  v : Nat
  id : String
  auth : Option String
  op : Op
  deriving DecidableEq

/-- The JSON of the messages. What is written has no control bytes, and a request is an object. -/
structure WireCodec where
  request : WireRequest → List UInt8
  parseRequest : List UInt8 → Except String Request
  reply : Response → List UInt8
  parseReply : List UInt8 → Except String Response
  parseChallenge : List UInt8 → Except String (List UInt8)
  request_plain : ∀ req, ∀ b ∈ request req, 32 ≤ b
  request_object : ∀ req, (request req).head? = some 123
  reply_plain : ∀ resp, ∀ b ∈ reply resp, 32 ≤ b

namespace WireCodec

variable (codec : WireCodec)

def parseResponseLine (line : List UInt8) : Except String Response :=
  match codec.parseChallenge line with
  | .ok _ => .error "automation token required"
  | .error _ => match codec.parseReply line with
    | .ok resp => .ok resp
    | .error err => .error s!"bad response: {err}"

/-- What the client makes of the next line of the connection, if one comes. -/
def readOutcome : Option LineRead → ReadOutcome
  | some (.line buf) => match codec.parseResponseLine buf with
    | .ok resp => .line resp
    | .error err => .malformed err
  | some (.invalidData err) => .error err
  | some .eof | some .failed | none => .closed

/-- What the client makes of the lines with the replies, by their place. -/
def reads (replies : List Response) (i : Nat) : ReadOutcome :=
  let bytes := frame (replies.map codec.reply)
  codec.readOutcome (incomingLines MAX_LINE_BYTES bytes.length ⟨bytes, false⟩)[i]?

/-- What the client makes of the line with a reply. -/
def replyOutcome (resp : Response) : ReadOutcome :=
  codec.readOutcome (some (readOf MAX_LINE_BYTES (codec.reply resp)))

/-- The client reads the line with a reply as a reply. -/
def Readable (resp : Response) : Prop := ∃ back, codec.replyOutcome resp = .line back

/-- The reply that the client has for the one that a host wrote. -/
def received (resp : Response) : Response :=
  match codec.replyOutcome resp with
  | .line back => back
  | _ => resp

end WireCodec

theorem newline_not_mem {line : List UInt8} (h : ∀ b ∈ line, 32 ≤ b) : NEWLINE ∉ line :=
  fun hmem => absurd (h NEWLINE hmem) (by decide)

theorem stripNewline_line {line : List UInt8} (h : ∀ b ∈ line, 32 ≤ b) :
    stripNewline (line ++ [NEWLINE]) = line := by
  unfold stripNewline
  rw [List.getLast?_concat, if_pos rfl, List.dropLast_concat, if_neg]
  intro hlast
  exact absurd (h CARRIAGE_RETURN (List.mem_of_getLast? hlast)) (by decide)

namespace WireCodec

variable {codec : WireCodec}

theorem Readable.outcome {resp : Response} (h : codec.Readable resp) :
    codec.replyOutcome resp = .line (codec.received resp) := by
  obtain ⟨back, hback⟩ := h
  rw [received, hback]

theorem Readable.readOf {resp : Response} (h : codec.Readable resp) :
    ∃ buf, readOf MAX_LINE_BYTES (codec.reply resp) = .line buf := by
  obtain ⟨back, hback⟩ := h
  unfold replyOutcome at hback
  cases hread : GpuiAgent.readOf MAX_LINE_BYTES (codec.reply resp) with
  | line buf => exact ⟨buf, rfl⟩
  | eof => simp [hread, readOutcome] at hback
  | invalidData err => simp [hread, readOutcome] at hback
  | failed => simp [hread, readOutcome] at hback

/-- The client reads the replies before the first that it cannot read. -/
theorem reads_line {resp : Response} {rest : List Response} (before : List Response)
    (h : ∀ r ∈ before, codec.Readable r) :
    codec.reads (before ++ resp :: rest) before.length = codec.replyOutcome resp := by
  have hlines : ∀ line ∈ (before ++ resp :: rest).map codec.reply, NEWLINE ∉ line := by
    intro line hline
    obtain ⟨r, -, rfl⟩ := List.mem_map.mp hline
    exact newline_not_mem (codec.reply_plain r)
  unfold reads replyOutcome
  dsimp only
  rw [incomingLines_frame _ _ _ _ le_rfl hlines]
  congr 1
  clear hlines
  induction before with
  | nil =>
    rw [List.nil_append, List.map_cons, lineReads]
    cases GpuiAgent.readOf MAX_LINE_BYTES (codec.reply resp) <;> rfl
  | cons r before ih =>
    obtain ⟨hr, hbefore⟩ := List.forall_mem_cons.mp h
    obtain ⟨buf, hbuf⟩ := hr.readOf
    rw [List.cons_append, List.map_cons, lineReads, hbuf]
    exact ih hbefore

theorem reads_of_readable {replies : List Response} (h : ∀ r ∈ replies, codec.Readable r)
    {i : Nat} {resp : Response} (hi : replies[i]? = some resp) :
    codec.reads replies i = .line (codec.received resp) := by
  obtain ⟨hlt, rfl⟩ := List.getElem?_eq_some_iff.mp hi
  have hsplit : replies.take i ++ replies[i] :: replies.drop (i + 1) = replies := by
    rw [List.getElem_cons_drop, List.take_append_drop]
  have hread := @reads_line codec replies[i] (replies.drop (i + 1)) (replies.take i)
    fun r hr => h r (List.mem_of_mem_take hr)
  rw [hsplit, List.length_take_of_le (by omega)] at hread
  rw [hread]
  exact (h _ (List.getElem_mem hlt)).outcome

end WireCodec

/-- One connection of a client to a host: the host's side, and the client's answer to its
challenge. -/
structure HostConnection (σ : Type) where
  env : Env
  host : AgentHost σ
  polls : Nat → Nat
  token : Option String
  nonce : Option (List UInt8)
  auth : Option String
  maxLineBytes : Nat
  codec : WireCodec

/-- The number of lines served on a connection, the host's state and the connection's cache. -/
abbrev SessionState (σ : Type) := Nat × σ × TreeCache

namespace HostConnection

variable {σ : Type} (conn : HostConnection σ)

def judge (line : List UInt8) : LineVerdict Request Response :=
  judgeLine conn.env conn.codec.parseRequest conn.token conn.nonce (readOf conn.maxLineBytes line)

/-- `handle_stream_host` on one line, with no other client. -/
def serve : SessionState σ → List UInt8 → Option Response × Option (SessionState σ) :=
  serveLine conn.judge
    (serveHost conn.env conn.token conn.nonce conn.host (fun _ s => s) conn.polls) endsSession

/-- The bytes of a request line; the client's counter is 64 bits wide. -/
def line (w : LineWrite) : List UInt8 :=
  conn.codec.request ⟨PROTOCOL_VERSION, fmtU64 (UInt64.ofNat w.id), conn.auth, w.op⟩

/-- What the host's loop makes of the lines in turn. -/
def serveLog (state : Option (SessionState σ)) (log : List LineWrite) :
    List Response × Option (SessionState σ) :=
  serveAll conn.serve state (log.map conn.line)

/-- None of the lines in turn closes the session: each is admitted, and no reply is a last one. -/
def StaysOpen (state : SessionState σ) (log : List LineWrite) : Prop :=
  (conn.serveLog (some state) log).2.isSome = true

/-- On a new connection these are the replies of the host's loop to the lines as one stream. -/
theorem serveLog_eq_handleStreamHost (randomNonce : Option (List UInt8))
    (started : beginSession conn.token randomNonce = some conn.nonce) (s : σ) (failed : Bool)
    (log : List LineWrite) : (conn.serveLog (some (0, s, {})) log).1 =
      (handleStreamHost conn.env conn.codec.parseRequest conn.token conn.host (fun _ s => s)
        conn.polls conn.maxLineBytes randomNonce s
        ⟨frame (log.map conn.line), failed⟩).filterMap SessionEvent.resp := by
  refine (handleStreamHost_frame _ _ _ _ _ _ _ _ _ started s failed _ fun line hline => ?_).symm
  obtain ⟨w, -, rfl⟩ := List.mem_map.mp hline
  exact newline_not_mem (conn.codec.request_plain _)

theorem judge_line_ne_skip (w : LineWrite) : conn.judge (conn.line w) ≠ .skip := by
  obtain ⟨rest, hrest⟩ : ∃ rest, conn.line w = 123 :: rest :=
    List.head?_eq_some_iff.mp (conn.codec.request_object _)
  have hstrip : stripNewline (conn.line w ++ [NEWLINE]) = conn.line w :=
    stripNewline_line (conn.codec.request_plain _)
  have hblank : lineIsBlank (conn.line w) = false := by
    rw [hrest]
    rfl
  unfold judge readOf judgeLine
  dsimp only
  rw [hstrip]
  split_ifs with hlong hutf8
  · simp
  · dsimp only
    rw [hblank]
    cases conn.codec.parseRequest (conn.line w) with
    | error err => simp
    | ok req =>
      cases hauth : authorizeRequest conn.env req conn.token conn.nonce <;> simp [hauth]
  · simp

/-- Every line is answered with one reply. -/
theorem serve_line_reply (state : SessionState σ) (w : LineWrite) :
    ∃ resp, (conn.serve state (conn.line w)).1 = some resp := by
  unfold serve
  cases hj : conn.judge (conn.line w) with
  | skip => exact absurd hj (conn.judge_line_ne_skip w)
  | refuse resp => exact ⟨resp, by rw [serveLine_refuse hj]⟩
  | allow req => exact ⟨_, by rw [serveLine_allow hj]⟩

/-- A session that stays open gives one reply for each line. -/
theorem serveLog_length (log : List LineWrite) : ∀ {state : SessionState σ},
    conn.StaysOpen state log → (conn.serveLog (some state) log).1.length = log.length := by
  induction log with
  | nil => exact fun _ => rfl
  | cons w log ih =>
    intro state h
    unfold StaysOpen serveLog at h
    unfold serveLog
    rw [List.map_cons, serveAll_cons] at h ⊢
    obtain ⟨resp, hresp⟩ := conn.serve_line_reply state w
    cases hnext : (conn.serve state (conn.line w)).2 with
    | none => simp [hnext] at h
    | some next =>
      rw [hnext] at h
      have hrest := @ih next h
      unfold serveLog at hrest
      rw [hresp]
      simp [hrest]

end HostConnection

end GpuiAgent
