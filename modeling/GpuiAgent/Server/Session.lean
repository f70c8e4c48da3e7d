import GpuiAgent.Framework.LineSession
import GpuiAgent.Server.WaitUntil

namespace GpuiAgent

open Framework

/-- The bytes still to come from a client, and whether the connection then fails instead of
ending. -/
structure Incoming where
  bytes : List UInt8
  failed : Bool := false

/-- The outcome of `read_limited_line_into`. -/
inductive LineRead where
  | line (buf : List UInt8)
  | eof
  | invalidData (err : String)
  | failed
  deriving DecidableEq

def NEWLINE : UInt8 := 10

def CARRIAGE_RETURN : UInt8 := 13

/-- What `read_until` takes of the next `maxBytes + 1` bytes, the newline included. -/
def readUntilNewline (maxBytes : Nat) (bytes : List UInt8) : List UInt8 :=
  let window := bytes.take (maxBytes + 1)
  window.takeWhile (· ≠ NEWLINE) ++ (window.dropWhile (· ≠ NEWLINE)).take 1

def stripNewline (buf : List UInt8) : List UInt8 :=
  if buf.getLast? = some NEWLINE then
    let buf := buf.dropLast
    if buf.getLast? = some CARRIAGE_RETURN then buf.dropLast else buf
  else buf

/-- Read one line of at most `maxBytes` bytes. -/
def readLimitedLineInto (maxBytes : Nat) (input : Incoming) : LineRead × Incoming :=
  let buf := readUntilNewline maxBytes input.bytes
  let rest := { input with bytes := input.bytes.drop buf.length }
  -- the stream fails while `read_until` still wants more
  if input.failed ∧ buf.length ≤ maxBytes ∧ buf.getLast? ≠ some NEWLINE then (.failed, rest)
  else if buf.isEmpty then (.eof, rest)
  else if maxBytes < buf.length then (.invalidData "line too long", rest)
  else
    let line := stripNewline buf
    if ByteArray.validateUTF8 ⟨line.toArray⟩ then (.line line, rest)
    else (.invalidData "line is not valid UTF-8", rest)

/-- `u8::is_ascii_whitespace`. -/
def isAsciiWhitespace (b : UInt8) : Bool := [9, 10, 12, 13, 32].contains b

def lineIsBlank (buf : List UInt8) : Bool := buf.all isAsciiWhitespace

/-- The lines of a connection up to the first that cannot be read. A line takes at least one byte,
so `fuel` is their number. -/
def incomingLines (maxBytes : Nat) : (fuel : Nat) → Incoming → List LineRead
  | 0, _ => []
  | fuel + 1, input => match readLimitedLineInto maxBytes input with
    | (.line buf, rest) => .line buf :: incomingLines maxBytes fuel rest
    | (.invalidData err, _) => [.invalidData err]
    | (.eof, _) | (.failed, _) => []

theorem readLimitedLineInto_nil (maxBytes : Nat) (failed : Bool) :
    (readLimitedLineInto maxBytes ⟨[], failed⟩).1 = if failed then .failed else .eof := by
  cases failed <;> simp [readLimitedLineInto, readUntilNewline]

/-- A line takes bytes off the input. -/
theorem readLimitedLineInto_lt {maxBytes : Nat} {input rest : Incoming} {buf : List UInt8}
    (h : readLimitedLineInto maxBytes input = (.line buf, rest)) :
    rest.bytes.length < input.bytes.length := by
  unfold readLimitedLineInto at h
  dsimp only at h
  split_ifs at h with hfailed hempty hlong hutf8
  · cases h
  · cases h
  · cases h
  · obtain ⟨-, rfl⟩ := Prod.mk.inj h
    have hbuf : 0 < (readUntilNewline maxBytes input.bytes).length :=
      List.length_pos_iff.mpr (by simpa using hempty)
    have hbytes : 0 < input.bytes.length := by
      by_contra hzero
      rw [Nat.not_lt, Nat.le_zero, List.length_eq_zero_iff] at hzero
      rw [hzero] at hbuf
      simp [readUntilNewline] at hbuf
    rw [List.length_drop]
    omega
  · cases h

/-- As many lines as bytes are enough: more fuel reads nothing more. -/
theorem incomingLines_enough {maxBytes : Nat} : ∀ {fuel : Nat} {input : Incoming},
    input.bytes.length ≤ fuel →
      incomingLines maxBytes fuel input = incomingLines maxBytes input.bytes.length input := by
  have nothing (fuel : Nat) (failed : Bool) : incomingLines maxBytes fuel ⟨[], failed⟩ = [] := by
    cases fuel with
    | zero => rfl
    | succ fuel =>
      have hread := readLimitedLineInto_nil maxBytes failed
      unfold incomingLines
      generalize readLimitedLineInto maxBytes ⟨[], failed⟩ = read at hread
      obtain ⟨read, rest⟩ := read
      cases failed <;> obtain rfl := hread <;> rfl
  intro fuel
  induction fuel using Nat.strong_induction_on with
  | _ fuel ih =>
    intro input hfuel
    obtain ⟨bytes, failed⟩ := input
    cases bytes with
    | nil => rw [nothing, nothing]
    | cons b bytes =>
      obtain ⟨fuel, rfl⟩ : ∃ n, fuel = n + 1 := ⟨fuel - 1, by simp at hfuel; omega⟩
      rw [List.length_cons, incomingLines, incomingLines]
      cases hread : readLimitedLineInto maxBytes ⟨b :: bytes, failed⟩ with
      | mk read rest =>
        cases read with
        | line buf =>
          have hlt := readLimitedLineInto_lt hread
          simp only [List.length_cons] at hlt hfuel
          dsimp only
          rw [ih fuel (by omega) (by omega), ← ih bytes.length (by omega) (by omega)]
        | eof => rfl
        | invalidData err => rfl
        | failed => rfl

/-- The session nonce, if a session can start at all. -/
def beginSession (token : Option String) (randomNonce : Option (List UInt8)) :
    Option (Option (List UInt8)) :=
  match token with
  | none => some none
  | some _ => randomNonce.map some

section Streams

variable {σ ι : Type} (env : Env) (parse : List UInt8 → Except String Request)
  (token : Option String) (nonce : Option (List UInt8))

/-- What both loops do with a line before they serve it. -/
def judgeLine : LineRead → LineVerdict Request Response
  | .line buf =>
    if lineIsBlank buf then .skip
    else match parse buf with
      | .error err => .refuse (.err "?" s!"bad json: {err}")
      | .ok req => match authorizeRequest env req token nonce with
        | .error resp => .refuse resp
        | .ok () => .allow req
  | .invalidData err => .refuse (.err "?" s!"bad request: {err}")
  | .eof | .failed => .skip

variable {env parse token nonce} in
/-- A line is served exactly where it reads as a request that passes the gate. -/
theorem judgeLine_eq_allow_iff {read : LineRead} {req : Request} :
    judgeLine env parse token nonce read = .allow req ↔
      ∃ buf, read = .line buf ∧ lineIsBlank buf = false ∧ parse buf = .ok req ∧
        authorizeRequest env req token nonce = .ok () := by
  constructor
  · intro h
    unfold judgeLine at h
    cases read with
    | line buf =>
      dsimp only at h
      split_ifs at h with hblank
      cases hparse : parse buf with
      | error err => simp [hparse] at h
      | ok r =>
        cases hauth : authorizeRequest env r token nonce with
        | error resp => simp [hparse, hauth] at h
        | ok u =>
          obtain rfl : r = req := by simpa [hparse, hauth] using h
          exact ⟨buf, rfl, by simpa using hblank, hparse, hauth⟩
    | eof => cases h
    | invalidData err => cases h
    | failed => cases h
  · intro ⟨buf, hread, hblank, hparse, hauth⟩
    subst hread
    simp [judgeLine, hblank, hparse, hauth]

/-- The reply after which a server shuts down. -/
def endsSession (req : Request) (resp : Response) : Bool :=
  req.op = .shutdown || (opIsConfirmedQuit req.op && resp.ok)

/-- One request under the host's lock, after the other connections have changed the host. -/
def serveHost (host : AgentHost σ) (others : Nat → σ → σ) (polls : Nat → Nat)
    (state : σ × TreeCache) (k : Nat) (req : Request) : Response × σ × TreeCache :=
  handleRequestCached env host (polls k) (others k state.1) state.2 req token nonce

def handleStreamHost (host : AgentHost σ) (others : Nat → σ → σ) (polls : Nat → Nat)
    (maxBytes : Nat) (randomNonce : Option (List UInt8)) (s : σ) (input : Incoming) :
    List (SessionEvent (σ × TreeCache) Request Response) :=
  match beginSession token randomNonce with
  | none => []
  | some nonce => serveLines (judgeLine env parse token nonce)
      (serveHost env token nonce host others polls) endsSession 0 (s, {})
      (incomingLines maxBytes input.bytes.length input)

end Streams

namespace MailboxServer

variable {σ ι : Type} (ui : UiThread σ ι)

/-- `AgentMailbox::wait`: post a request, let the other threads do `others`, and look at the reply
channel when the time is up. -/
def waitFor (s : MailboxServer σ) (req : Request) (others : List (MailboxEvent ι)) :
    Except String Response × MailboxServer σ :=
  let ticket := s.requests.length
  let s := (s.push req).run ui others
  ((AgentMailbox.recvTimeout (s.sent.lookup ticket) true).getD (.error DRAIN_TIMED_OUT),
    s.wait ticket true)

/-- What the other threads do during one round of a `wait_until`: while it waits for the probe, and
while it waits for the assert. -/
structure WaitRound (ι : Type) where
  probing : List (MailboxEvent ι) := []
  asserting : List (MailboxEvent ι) := []

/-- One round of `wait_until_via_mailbox`: a probe, and an assert unless the revision it covers has
been checked. -/
def waitRound (req : Request) (spec : AssertSpec) (call : WaitUntilCall) (s : MailboxServer σ)
    (round : WaitRound ι) (late : Bool) : WaitUntilCall × MailboxServer σ :=
  let (answer, s) := s.waitFor ui { req with op := .revision } round.probing
  let call := Waiting.probed req call late answer
  match call.phase with
  | .posting probedRev =>
    let (answer, s) := s.waitFor ui { req with op := .assert spec } round.asserting
    (Waiting.asserted req call probedRev late answer, s)
  | _ => (call, s)

/-- `wait_until_via_mailbox` from one round on, `more` rounds before the deadline passes. -/
def waitUntilViaMailbox (req : Request) (spec : AssertSpec) (call : WaitUntilCall)
    (s : MailboxServer σ) (round : WaitRound ι) : List (WaitRound ι) → Response × MailboxServer σ
  | [] =>
    let (call, s) := waitRound ui req spec call s round true
    match call.phase with
    | .returned resp => (resp, s)
    -- no round ends without a reply after the deadline
    | _ => (.err req.id "wait_until timed out", s)
  | next :: more =>
    let (call, s) := waitRound ui req spec call s round false
    match call.phase with
    | .returned resp => (resp, s)
    | _ => waitUntilViaMailbox req spec call s next more

/-- What the other threads do around one line: before it is posted, while it waits for its reply,
and in the rounds of a `wait_until`. -/
structure LineTraffic (ι : Type) where
  before : List (MailboxEvent ι) := []
  waiting : List (MailboxEvent ι) := []
  round : WaitRound ι := {}
  more : List (WaitRound ι) := []

def serveMailbox (token : Option String) (traffic : Nat → LineTraffic ι) (s : MailboxServer σ)
    (k : Nat) (req : Request) : Response × MailboxServer σ :=
  let t := traffic k
  let s := s.run ui t.before
  let (resp, s) := match req.op with
    | .waitUntil _ spec => waitUntilViaMailbox ui req spec {} s t.round t.more
    | _ => match s.waitFor ui req t.waiting with
      | (.ok resp, s) => (resp, s)
      | (.error err, s) => (.err "?" err, s)
  ({ resp with
    hello := resp.hello.map fun hello => { hello with auth := .fromTokenConfigured token } }, s)

end MailboxServer

def handleStreamMailbox {σ ι : Type} (env : Env) (parse : List UInt8 → Except String Request)
    (token : Option String) (ui : UiThread σ ι) (traffic : Nat → MailboxServer.LineTraffic ι)
    (maxBytes : Nat) (randomNonce : Option (List UInt8)) (s : MailboxServer σ) (input : Incoming) :
    List (SessionEvent (MailboxServer σ) Request Response) :=
  match beginSession token randomNonce with
  | none => []
  | some nonce => serveLines (judgeLine env parse token nonce)
      (MailboxServer.serveMailbox ui token traffic) endsSession 0 s
      (incomingLines maxBytes input.bytes.length input)

end GpuiAgent
