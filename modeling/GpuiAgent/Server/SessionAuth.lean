import GpuiAgent.Server.Session

namespace GpuiAgent

open Framework

/-- The request carries its auth for this session, and no token of its own. -/
structure Authorised (env : Env) (token : String) (nonce : Option (List UInt8)) (req : Request) :
    Prop where
  current : req.v = PROTOCOL_VERSION
  no_token : (req.token.any fun t => !t.isEmpty) = false
  verified : ∃ n, nonce = some n ∧ n.length = NONCE_LEN ∧
    ∃ auth, req.auth = some auth ∧ env.hmacVerify token n auth = true

/-- The gate of a server with a token, check by check. -/
theorem authorizeRequest_tokened (env : Env) (req : Request) (token : String)
    (nonce : Option (List UInt8)) :
    authorizeRequest env req (some token) nonce =
      if req.v ≠ PROTOCOL_VERSION then
        .error (.err req.id
          s!"unsupported protocol version {req.v} (want {PROTOCOL_VERSION})")
      else if req.token.any fun t => !t.isEmpty then
        .error (.err req.id "token must not be sent on the wire")
      else match nonce.filter (fun n => n.length = NONCE_LEN), req.auth with
        | some n, some auth =>
          if env.hmacVerify token n auth then .ok ()
          else .error (.err req.id "invalid automation token")
        | _, _ => .error (.err req.id "automation token required") := by
  unfold authorizeRequest
  by_cases hv : req.v = PROTOCOL_VERSION
  · rw [if_neg (not_not.mpr hv), if_neg (not_not.mpr hv)]
    by_cases ht : (req.token.any fun t => !t.isEmpty) = true
    · rw [if_pos ht]
      dsimp only
      rw [if_pos ht]
      rfl
    · rw [if_neg ht]
      dsimp only
      rw [if_neg ht]
      cases nonce.filter fun n => n.length = NONCE_LEN with
      | none => rfl
      | some n =>
        cases req.auth with
        | none => rfl
        | some auth =>
          dsimp only
          cases env.hmacVerify token n auth <;> rfl
  · rw [if_pos hv, if_pos hv]
    rfl

theorem authorizeRequest_eq_ok {env : Env} {token : String} {nonce : Option (List UInt8)}
    {req : Request} :
    authorizeRequest env req (some token) nonce = .ok () ↔ Authorised env token nonce req := by
  rw [authorizeRequest_tokened]
  constructor
  · intro h
    split_ifs at h with hv ht
    split at h
    next n auth hn ha =>
      obtain ⟨hnonce, hlen⟩ := Option.filter_eq_some_iff.mp hn
      split_ifs at h with hm
      exact ⟨not_not.mp hv, by simpa using ht, n, hnonce, by simpa using hlen, auth, ha, hm⟩
    next => cases h
  · rintro ⟨hv, ht, n, rfl, hlen, auth, ha, hm⟩
    have hn : (some n).filter (fun n => n.length = NONCE_LEN) = some n := by
      simp [Option.filter, hlen]
    rw [hn, ha]
    simp [hv, ht, hm]

/-- A refusal is an error under the id of its request. -/
theorem authorizeRequest_refused {env : Env} {req : Request} {token : Option String}
    {nonce : Option (List UInt8)} {resp : Response}
    (h : authorizeRequest env req token nonce = .error resp) :
    ∃ error, resp = .err req.id error := by
  cases token with
  | none =>
    unfold authorizeRequest at h
    by_cases hv : req.v = PROTOCOL_VERSION
    · rw [if_neg (not_not.mpr hv)] at h
      cases h
    · rw [if_pos hv] at h
      cases h
      exact ⟨_, rfl⟩
  | some token =>
    rw [authorizeRequest_tokened] at h
    split_ifs at h
    · cases h
      exact ⟨_, rfl⟩
    · cases h
      exact ⟨_, rfl⟩
    · split at h
      next =>
        split_ifs at h
        cases h
        exact ⟨_, rfl⟩
      next =>
        cases h
        exact ⟨_, rfl⟩

section Judge

variable {env : Env} {parse : List UInt8 → Except String Request} {token : String}
  {nonce : Option (List UInt8)}

/-- A line that reads as an authorised request. -/
def AuthorisedLine (env : Env) (parse : List UInt8 → Except String Request) (token : String)
    (nonce : Option (List UInt8)) (read : LineRead) (req : Request) : Prop :=
  ∃ buf, read = .line buf ∧ lineIsBlank buf = false ∧ parse buf = .ok req ∧
    Authorised env token nonce req

def BlankLine (read : LineRead) : Prop := ∃ buf, read = .line buf ∧ lineIsBlank buf = true

theorem judgeLine_allow {read : LineRead} {req : Request} :
    judgeLine env parse (some token) nonce read = .allow req ↔
      AuthorisedLine env parse token nonce read req := by
  rw [judgeLine_eq_allow_iff, AuthorisedLine]
  simp only [authorizeRequest_eq_ok]

theorem judgeLine_skip {buf : List UInt8} (h : judgeLine env parse (some token) nonce (.line buf) =
    .skip) : lineIsBlank buf = true := by
  unfold judgeLine at h
  dsimp only at h
  split_ifs at h with hb
  · exact hb
  · cases hp : parse buf with
    | error err => simp [hp] at h
    | ok r => cases ha : authorizeRequest env r (some token) nonce <;> simp [hp, ha] at h

/-- A refusal is an error reply. -/
theorem judgeLine_refuse {read : LineRead} {resp : Response}
    (h : judgeLine env parse (some token) nonce read = .refuse resp) : resp.ok = false := by
  cases read with
  | line buf =>
    unfold judgeLine at h
    dsimp only at h
    split_ifs at h with hb
    cases hp : parse buf with
    | error err =>
      rw [hp] at h
      cases h
      rfl
    | ok req =>
      cases ha : authorizeRequest env req (some token) nonce with
      | ok u => simp [hp, ha] at h
      | error refusal =>
        obtain rfl : refusal = resp := by simpa [hp, ha] using h
        obtain ⟨error, rfl⟩ := authorizeRequest_refused ha
        rfl
  | invalidData err =>
    cases h
    rfl
  | eof => cases h
  | failed => cases h

/-- The reads of a connection are lines, or a line that cannot be read. -/
theorem mem_incomingLines {maxBytes : Nat} : ∀ {fuel : Nat} {input : Incoming} {read : LineRead},
    read ∈ incomingLines maxBytes fuel input →
      (∃ buf, read = .line buf) ∨ ∃ err, read = .invalidData err := by
  intro fuel
  induction fuel with
  | zero =>
    intro input read h
    cases h
  | succ fuel ih =>
    intro input read h
    unfold incomingLines at h
    split at h
    next buf rest _ =>
      rcases List.mem_cons.mp h with rfl | h
      · exact .inl ⟨buf, rfl⟩
      · exact ih h
    next err _ _ => exact .inr ⟨err, List.mem_singleton.mp h⟩
    all_goals cases h

end Judge

/-- What a session with a token owes its host. A line that is not blank and does not read as an
authorised request ends the session, with one error reply at most. -/
structure Authenticated {τ : Type} (env : Env) (parse : List UInt8 → Except String Request)
    (token : String) (nonce : Option (List UInt8)) (reads : List LineRead)
    (events : List (SessionEvent τ Request Response)) : Prop where
  touched : ∀ k s req, .handled k s req ∈ events →
    (∃ read, reads[k]? = some read ∧ AuthorisedLine env parse token nonce read req) ∧
      ∀ j < k, ∃ read, reads[j]? = some read ∧
        (BlankLine read ∨ ∃ req, AuthorisedLine env parse token nonce read req)
  closed : ∀ k read, reads[k]? = some read → ¬ BlankLine read →
    (∀ req, ¬ AuthorisedLine env parse token nonce read req) →
      (∀ e ∈ events, e.line ≤ k) ∧ (events.filter (fun e => e.line = k) = [] ∨
        ∃ resp, resp.ok = false ∧ events.filter (fun e => e.line = k) = [.reply k resp])

section Loops

variable {env : Env} {parse : List UInt8 → Except String Request} {token : String}

/-- Both loops serve their lines through the gate. -/
theorem authenticated_serveLines {τ : Type} {answer : τ → Nat → Request → Response × τ}
    {nonce : Option (List UInt8)} {state : τ} {reads : List LineRead}
    (readable : ∀ read ∈ reads, (∃ buf, read = .line buf) ∨ ∃ err, read = .invalidData err) :
    Authenticated env parse token nonce reads
      (serveLines (judgeLine env parse (some token) nonce) answer endsSession 0 state reads) where
  touched := by
    intro k s req h
    obtain ⟨⟨read, hat, hallow⟩, hbefore⟩ := admitted_of_handled h
    refine ⟨⟨read, by simpa using hat, judgeLine_allow.mp hallow⟩, fun j hj => ?_⟩
    obtain ⟨read, hat, hskip | ⟨r, hallow⟩⟩ := hbefore j (by simpa using hj)
    · refine ⟨read, hat, .inl ?_⟩
      rcases readable read (List.mem_of_getElem? hat) with ⟨buf, rfl⟩ | ⟨err, rfl⟩
      · exact ⟨buf, rfl, judgeLine_skip hskip⟩
      · cases hskip
    · exact ⟨read, hat, .inr ⟨r, judgeLine_allow.mp hallow⟩⟩
  closed := by
    intro k read hat hblank hauth
    cases hj : judgeLine env parse (some token) nonce read with
    | skip =>
      rcases readable read (List.mem_of_getElem? hat) with ⟨buf, rfl⟩ | ⟨err, rfl⟩
      · exact absurd ⟨buf, rfl, judgeLine_skip hj⟩ hblank
      · cases hj
    | allow req => exact absurd (judgeLine_allow.mp hj) (hauth req)
    | refuse resp =>
      obtain ⟨hle, hfilter⟩ :=
        @refused_last _ _ _ _ _ answer endsSession _ 0 k state read resp hat hj
      rw [Nat.zero_add] at hle hfilter
      refine ⟨hle, hfilter.imp_right fun h => ?_⟩
      exact ⟨resp, judgeLine_refuse hj, h⟩

variable {σ ι : Type}

/-- On a server with a token, whatever bytes a client sends, the host and the mailbox see only the
requests that are authorised for the session, up to the first line that is not. -/
theorem session_authenticated (env : Env) (parse : List UInt8 → Except String Request)
    (token : String) (maxBytes : Nat) (randomNonce : Option (List UInt8)) (input : Incoming)
    (host : AgentHost σ) (others : Nat → σ → σ) (polls : Nat → Nat) (s : σ) (ui : UiThread σ ι)
    (traffic : Nat → MailboxServer.LineTraffic ι) (server : MailboxServer σ) :
    let reads := incomingLines maxBytes input.bytes.length input
    Authenticated env parse token randomNonce reads
        (handleStreamHost env parse (some token) host others polls maxBytes randomNonce s input) ∧
      Authenticated env parse token randomNonce reads
        (handleStreamMailbox env parse (some token) ui traffic maxBytes randomNonce server
          input) := by
  intro reads
  have readable : ∀ read ∈ reads, (∃ buf, read = .line buf) ∨ ∃ err, read = .invalidData err :=
    fun read h => mem_incomingLines h
  unfold handleStreamHost handleStreamMailbox beginSession
  cases randomNonce with
  | none =>
    have silent {τ : Type} : Authenticated env parse token none reads
        ([] : List (SessionEvent τ Request Response)) :=
      ⟨fun _ _ _ h => absurd h List.not_mem_nil,
        fun _ _ _ _ _ => ⟨fun _ h => absurd h List.not_mem_nil, .inl rfl⟩⟩
    exact ⟨silent, silent⟩
  | some nonce => exact ⟨authenticated_serveLines readable, authenticated_serveLines readable⟩

end Loops

end GpuiAgent
