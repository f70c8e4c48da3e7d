import GpuiAgent.Framework.Indexed
import GpuiAgent.Host.SnapshotCache
import GpuiAgent.Server.SessionAuth

namespace GpuiAgent

open Framework

theorem Response.ofDispatch_id (id : String) (result : Except String DispatchResult) :
    (Response.ofDispatch id result).id = id := by
  cases result with
  | error error => rfl
  | ok result => rfl

section Handle

variable {σ : Type} (env : Env) (host : AgentHost σ)

theorem waitUntilAssert_id (s : σ) (id : String) (spec : AssertSpec) (polls : Nat) :
    ∀ cache, (waitUntilAssert env host s id spec polls cache).1.id = id := by
  induction polls with
  | zero =>
    intro cache
    unfold waitUntilAssert
    dsimp only
    split
    · rfl
    · split_ifs <;> rfl
  | succ polls ih =>
    intro cache
    unfold waitUntilAssert
    dsimp only
    split
    · rfl
    · split_ifs
      · rfl
      · exact ih _

theorem snapshotResponse_id (s : σ) (cache : TreeCache) (id : String) (since : Option Nat)
    (format : Option SnapshotFormat) (fingerprints : Option Bool) :
    (snapshotResponse host s cache id since format fingerprints).1.id = id := by
  unfold snapshotResponse
  dsimp only
  repeat' split
  all_goals rfl

/-- Whatever comes of a request, the reply has its id. -/
theorem handleRequestCached_id (polls : Nat) (s : σ) (cache : TreeCache) (req : Request)
    (token : Option String) (nonce : Option (List UInt8)) :
    (handleRequestCached env host polls s cache req token nonce).1.id = req.id := by
  have dispatched (s : σ) (op : Op) : (dispatchResponse host s req.id op).1.id = req.id :=
    Response.ofDispatch_id req.id _
  unfold handleRequestCached
  cases hauth : authorizeRequest env req token nonce with
  | error resp =>
    obtain ⟨error, rfl⟩ := authorizeRequest_refused hauth
    rfl
  | ok _ =>
    cases req.op with
    | wait timeoutMs => cases timeoutMs with
      | none => rfl
      | some _ =>
        dsimp only
        unfold waitUntilReady
        dsimp only
        split <;> rfl
    | waitUntil _ spec => exact waitUntilAssert_id env host s req.id spec polls cache
    | snapshot since format fingerprints =>
      exact snapshotResponse_id host s cache req.id since format fingerprints
    | screenshot path mode target maxHeightPx =>
      dsimp only
      split
      · rfl
      · exact Response.ofDispatch_id req.id _
    | assert spec =>
      dsimp only
      split <;> rfl
    | events since limit =>
      dsimp only
      split <;> rfl
    | keybinding binding chord scope confirm activate =>
      dsimp only
      split
      · rfl
      · exact dispatched s _
    | hello => rfl
    | revision => rfl
    | keybindings => rfl
    | _ =>
      dsimp only
      repeat' split
      all_goals first | rfl | exact dispatched s _

end Handle

/-- A UI thread that answers every request under the request's own id. `Owes app id` says that the
app has a reply pending, and under which id. -/
structure CorrelatedUi (σ ι : Type) extends UiThread σ ι where
  Owes : σ → Option String → Prop
  serve_reply : ∀ app posted resp, Owes app none → (serve app posted).1 = some resp →
    resp.id = posted.request.id ∧ Owes (serve app posted).2 none
  serve_defer : ∀ app posted, Owes app none → (serve app posted).1 = none →
    Owes (serve app posted).2 (some posted.request.id)
  finish_reply : ∀ app id resp, Owes app (some id) → (finish app).1 = some resp →
    resp.id = id ∧ Owes (finish app).2 none
  finish_defer : ∀ app id, Owes app (some id) → (finish app).1 = none →
    Owes (finish app).2 (some id)
  react_owes : ∀ app input owed, Owes app owed → Owes (react app input) owed

/-- A host whose UI thread answers every request with `handle_request` owes nothing. -/
def AgentHost.correlatedUi {σ ι : Type} (env : Env) (host : AgentHost σ) (polls : Nat)
    (react : σ → ι → σ) : CorrelatedUi σ ι where
  toUiThread := (host.observedUi env polls react).toUiThread
  Owes := fun _ owed => owed = none
  serve_reply := by
    rintro s posted resp - ⟨⟩
    exact ⟨handleRequestCached_id env host polls s {} posted.request none none, rfl⟩
  serve_defer := by
    rintro s posted - ⟨⟩
  finish_reply := by
    rintro s id resp ⟨⟩
  finish_defer := by
    rintro s id ⟨⟩
  react_owes := fun _ _ _ h => h

namespace MailboxServer

variable {σ ι : Type} (ui : CorrelatedUi σ ι)

/-- Every message on a reply channel has the id of the request that was posted with it. -/
structure Correlated (s : MailboxServer σ) : Prop where
  ticketed : Ticketed s
  sent : ∀ m ∈ s.sent, ∃ req, s.requests[m.1]? = some req ∧ m.2.id = req.id
  pending : ∀ p ∈ s.pending, s.requests[p.ticket]? = some p.request
  owes : ui.Owes s.app (s.pending.map fun p => p.request.id)

variable {ui} {s : MailboxServer σ}

theorem correlated_start {app : σ} (idle : ui.Owes app none) :
    Correlated ui ({ app } : MailboxServer σ) where
  ticketed := ticketed_start app
  sent := fun _ h => absurd h List.not_mem_nil
  pending := fun _ h => by cases h
  owes := idle

theorem Correlated.push (h : Correlated ui s) (request : Request) :
    Correlated ui (s.push request) := by
  have ticketed := h.ticketed.push request
  have hgrown : s.requests <+: s.requests ++ [request] := List.prefix_append _ _
  have old (m : Nat × Response) (hm : m ∈ s.sent) :
      ∃ req, (s.requests ++ [request])[m.1]? = some req ∧ m.2.id = req.id := by
    obtain ⟨req, hreq, hid⟩ := h.sent m hm
    exact ⟨req, getElem?_extend hgrown hreq, hid⟩
  rcases s.push_cases request with ⟨_, heq⟩ | ⟨_, heq⟩
  · rw [heq] at ticketed ⊢
    exact ⟨ticketed, old, fun p hp => getElem?_extend hgrown (h.pending p hp), h.owes⟩
  · rw [heq] at ticketed ⊢
    refine ⟨ticketed, fun m hm => ?_,
      fun p hp => getElem?_extend hgrown (h.pending p hp), h.owes⟩
    rcases List.mem_append.mp hm with hm | hm
    · exact old m hm
    · obtain rfl := List.mem_singleton.mp hm
      exact ⟨request, by simp, rfl⟩

theorem Correlated.wait (h : Correlated ui s) (ticket : Nat) (expired : Bool) :
    Correlated ui (s.wait ticket expired) := by
  have ticketed : Ticketed (s.wait ticket expired) :=
    @Ticketed.step _ _ ui.toUiThread _ h.ticketed (.wait ticket expired)
  rcases s.wait_cases ticket expired with heq | ⟨_, _, answer, _, heq⟩
  · rw [heq]
    exact h
  · rw [heq] at ticketed ⊢
    exact ⟨ticketed, h.sent, h.pending, h.owes⟩

/-- Replying to a request, or leaving it pending, under its id. -/
theorem correlated_reply {posted : MailboxRequest} {resp : Option Response}
    (ticketed : Ticketed (s.reply posted resp))
    (sent : ∀ m ∈ s.sent, ∃ req, s.requests[m.1]? = some req ∧ m.2.id = req.id)
    (hposted : s.requests[posted.ticket]? = some posted.request)
    (replied : ∀ r, resp = some r → r.id = posted.request.id ∧ ui.Owes s.app none)
    (deferred : resp = none → ui.Owes s.app (some posted.request.id)) :
    Correlated ui (s.reply posted resp) := by
  cases resp with
  | none =>
    refine ⟨ticketed, sent, fun p hp => ?_, deferred rfl⟩
    obtain rfl := Option.mem_some.mp hp
    exact hposted
  | some r =>
    obtain ⟨hid, hidle⟩ := replied r rfl
    refine ⟨ticketed, fun m hm => ?_, fun p hp => (by cases hp), hidle⟩
    rcases List.mem_append.mp hm with hm | hm
    · exact sent m hm
    · obtain rfl := List.mem_singleton.mp hm
      exact ⟨posted.request, hposted, hid⟩

/-- One step of any thread keeps replies and requests together. -/
theorem Correlated.step (h : Correlated ui s) (e : MailboxEvent ι) :
    Correlated ui (s.step ui.toUiThread e) := by
  have ticketed : Ticketed (s.step ui.toUiThread e) := h.ticketed.step e
  cases e with
  | push request => exact h.push request
  | wait ticket expired => exact h.wait ticket expired
  | take => exact ⟨ticketed, h.sent, h.pending, h.owes⟩
  | react input => exact ⟨ticketed, h.sent, h.pending, ui.react_owes _ input _ h.owes⟩
  | serve =>
    rcases s.serve_cases ui.toUiThread with heq | ⟨posted, backlog, idle, queued, heq⟩
    · rw [MailboxServer.step, heq]
      exact h
    · have hposted : s.requests[posted.ticket]? = some posted.request := by
        apply h.ticketed.posted
        rw [accepted_eq]
        unfold MailboxServer.queued
        rw [queued]
        simp
      have howes := h.owes
      rw [idle] at howes
      rw [MailboxServer.step, heq] at ticketed ⊢
      apply correlated_reply ticketed h.sent hposted
      · intro r hr
        exact ui.serve_reply _ _ _ howes hr
      · intro hnone
        exact ui.serve_defer _ _ howes hnone
  | finish =>
    rcases s.finish_cases ui.toUiThread with heq | ⟨posted, busy, heq⟩
    · rw [MailboxServer.step, heq]
      exact h
    · have howes := h.owes
      rw [busy] at howes
      rw [MailboxServer.step, heq] at ticketed ⊢
      apply correlated_reply ticketed h.sent (h.pending posted busy)
      · intro r hr
        exact ui.finish_reply _ _ _ howes hr
      · intro hnone
        exact ui.finish_defer _ _ howes hnone

theorem Correlated.run (h : Correlated ui s) (events : List (MailboxEvent ι)) :
    Correlated ui (s.run ui.toUiThread events) := by
  induction events generalizing s with
  | nil => exact h
  | cons e events ih => exact ih (h.step e)

/-- A message that `wait` returns has the id of the request that was posted, and the server stays
correlated. -/
theorem Correlated.waitFor (h : Correlated ui s) (req : Request) (others : List (MailboxEvent ι)) :
    (∀ resp, (s.waitFor ui.toUiThread req others).1 = .ok resp → resp.id = req.id) ∧
      Correlated ui (s.waitFor ui.toUiThread req others).2 := by
  have hrun := (h.push req).run others
  refine ⟨fun resp hresp => ?_, hrun.wait _ true⟩
  unfold MailboxServer.waitFor AgentMailbox.recvTimeout at hresp
  dsimp only at hresp
  cases hsent : ((s.push req).run ui.toUiThread others).sent.lookup s.requests.length with
  | none =>
    rw [hsent] at hresp
    cases hresp
  | some message =>
    rw [hsent] at hresp
    obtain rfl : message = resp := by simpa using hresp
    obtain ⟨r, hr, hid⟩ := hrun.sent _ (mem_of_lookup hsent)
    have hown : (s.push req).requests[s.requests.length]? = some req := by
      rw [push_requests]
      simp
    have hlater := (later_run ui.toUiThread (s.push req) others).getElem?_requests hown
    rw [hlater] at hr
    obtain rfl := Option.some.inj hr
    exact hid

/-- `wait` returns a message exactly when one is on the channel by the time it is over. -/
theorem waitFor_isOk (s : MailboxServer σ) (req : Request) (others : List (MailboxEvent ι)) :
    (∃ resp, (s.waitFor ui.toUiThread req others).1 = .ok resp) ↔
      (((s.push req).run ui.toUiThread others).sent.lookup s.requests.length).isSome = true := by
  unfold MailboxServer.waitFor AgentMailbox.recvTimeout
  dsimp only
  cases ((s.push req).run ui.toUiThread others).sent.lookup s.requests.length with
  | none => simp
  | some message => simp

/-- A probe ends a `wait_until` only with an error under the request's id. -/
theorem probed_id {req : Request} {call : WaitUntilCall} {late : Bool}
    {answer : Except String Response} {resp : Response}
    (h : (Waiting.probed req call late answer).phase = .returned resp) : resp.id = req.id := by
  unfold Waiting.probed at h
  split at h
  next => cases h
  next =>
    split at h
    next => cases h
    next =>
      split_ifs at h
      cases h
      rfl

/-- An assert ends it with its own reply, or with an error under the request's id. -/
theorem asserted_id {req : Request} {call : WaitUntilCall} {probedRev : Option Nat} {late : Bool}
    {answer : Except String Response} {resp : Response}
    (own : ∀ r, answer = .ok r → r.id = req.id)
    (h : (Waiting.asserted req call probedRev late answer).phase = .returned resp) :
    resp.id = req.id := by
  unfold Waiting.asserted at h
  split at h
  next =>
    cases h
    rfl
  next r =>
    split_ifs at h
    · cases h
      exact own _ rfl
    all_goals
      dsimp only at h
      split_ifs at h
      all_goals
        cases h
        rfl

theorem Correlated.waitRound (h : Correlated ui s) (req : Request) (spec : AssertSpec)
    (call : WaitUntilCall) (round : WaitRound ι) (late : Bool) :
    (∀ resp, (s.waitRound ui.toUiThread req spec call round late).1.phase = .returned resp →
      resp.id = req.id) ∧
      Correlated ui (s.waitRound ui.toUiThread req spec call round late).2 := by
  obtain ⟨-, hprobe⟩ := h.waitFor { req with op := .revision } round.probing
  obtain ⟨own, hassert⟩ := hprobe.waitFor { req with op := .assert spec } round.asserting
  unfold MailboxServer.waitRound
  dsimp only
  split
  next probedRev _ => exact ⟨fun resp hresp => asserted_id own hresp, hassert⟩
  next => exact ⟨fun resp hresp => probed_id hresp, hprobe⟩

/-- A `wait_until` replies under the request's id, after however many rounds. -/
theorem Correlated.waitUntilViaMailbox (req : Request) (spec : AssertSpec)
    (more : List (WaitRound ι)) : ∀ {s : MailboxServer σ} (round : WaitRound ι)
    (call : WaitUntilCall), Correlated ui s →
    (s.waitUntilViaMailbox ui.toUiThread req spec call round more).1.id = req.id ∧
      Correlated ui (s.waitUntilViaMailbox ui.toUiThread req spec call round more).2 := by
  induction more with
  | nil =>
    intro s round call h
    obtain ⟨own, hround⟩ := h.waitRound req spec call round true
    unfold MailboxServer.waitUntilViaMailbox
    dsimp only
    split
    next resp hphase => exact ⟨own resp hphase, hround⟩
    next => exact ⟨rfl, hround⟩
  | cons next more ih =>
    intro s round call h
    obtain ⟨own, hround⟩ := h.waitRound req spec call round false
    unfold MailboxServer.waitUntilViaMailbox
    dsimp only
    split
    next resp hphase => exact ⟨own resp hphase, hround⟩
    next => exact ih next _ hround

/-- The condition under which the mailbox loop replies to a request under its own id: it is a
`wait_until`, or the UI thread answers it before its wait is over, or it has the id of an error
without a request. -/
def RepliesUnderId (ui : UiThread σ ι) (t : LineTraffic ι) (s : MailboxServer σ) (req : Request) :
    Prop :=
  (∃ timeoutMs spec, req.op = .waitUntil timeoutMs spec) ∨ req.id = "?" ∨
    ((((s.run ui t.before).push req).run ui t.waiting).sent.lookup
      (s.run ui t.before).requests.length).isSome = true

theorem Correlated.serveMailbox (h : Correlated ui s) (token : Option String)
    (traffic : Nat → LineTraffic ι) (k : Nat) (req : Request) :
    ((s.serveMailbox ui.toUiThread token traffic k req).1.id = req.id ↔
      RepliesUnderId ui.toUiThread (traffic k) s req) ∧
      Correlated ui (s.serveMailbox ui.toUiThread token traffic k req).2 := by
  have hrun := h.run (traffic k).before
  unfold MailboxServer.serveMailbox RepliesUnderId
  dsimp only
  split
  next timeoutMs spec hop =>
    obtain ⟨hid, hwait⟩ := hrun.waitUntilViaMailbox req spec (traffic k).more (traffic k).round {}
    exact ⟨iff_of_true hid (.inl ⟨timeoutMs, spec, hop⟩), hwait⟩
  next hop =>
    obtain ⟨own, hwait⟩ := hrun.waitFor req (traffic k).waiting
    have hok := @waitFor_isOk _ _ ui (s.run ui.toUiThread (traffic k).before) req
      (traffic k).waiting
    cases hanswer : (s.run ui.toUiThread (traffic k).before).waitFor ui.toUiThread req
        (traffic k).waiting with
    | mk answer t =>
      rw [hanswer] at own hwait hok
      cases answer with
      | ok resp =>
        exact ⟨iff_of_true (own resp rfl) (.inr (.inr (hok.mp ⟨resp, rfl⟩))), hwait⟩
      | error err =>
        refine ⟨⟨fun hid => .inr (.inl hid.symm), ?_⟩, hwait⟩
        rintro (⟨timeoutMs, spec, heq⟩ | hid | hsome)
        · exact absurd heq (hop timeoutMs spec)
        · exact hid.symm
        · obtain ⟨resp, hresp⟩ := hok.mpr hsome
          cases hresp

end MailboxServer

section Replies

variable {σ τ ι : Type}

/-- Both loops reply once to every line that reads as an authorised request, unless the session has
ended before it. The host's loop replies under the request's id, the mailbox's loop exactly if
`RepliesUnderId`. -/
theorem replies_correlated_iff (env : Env) (parse : List UInt8 → Except String Request)
    (token : Option String) (maxBytes : Nat) (randomNonce nonce : Option (List UInt8))
    (started : beginSession token randomNonce = some nonce) (input : Incoming)
    (host : AgentHost σ) (others : Nat → σ → σ) (polls : Nat → Nat) (s : σ)
    (ui : CorrelatedUi τ ι) (traffic : Nat → MailboxServer.LineTraffic ι) (app : τ)
    (idle : ui.Owes app none) (past : List (MailboxEvent ι)) (k : Nat) (read : LineRead)
    (req : Request) :
    let reads := incomingLines maxBytes input.bytes.length input
    let judge := judgeLine env parse token nonce
    let server := ({ app } : MailboxServer τ).run ui.toUiThread past
    let viaHost := handleStreamHost env parse token host others polls maxBytes randomNonce s input
    let viaMailbox := handleStreamMailbox env parse token ui.toUiThread traffic maxBytes randomNonce
      server input
    reads[k]? = some read → judge read = .allow req →
      ((∃ j < k, ClosesAt judge (serveHost env token nonce host others polls) endsSession 0 (s, {})
          reads j) ∨
        ∃ resp, viaHost.filterMap (SessionEvent.replyTo k) = [resp] ∧ resp.id = req.id) ∧
      ((∃ j < k, ClosesAt judge (MailboxServer.serveMailbox ui.toUiThread token traffic) endsSession
          0 server reads j) ∨
        ∃ at' resp, .handled k at' req ∈ viaMailbox ∧
          viaMailbox.filterMap (SessionEvent.replyTo k) = [resp] ∧
          (resp.id = req.id ↔ MailboxServer.RepliesUnderId ui.toUiThread (traffic k) at' req)) := by
  intro reads judge server viaHost viaMailbox hat hallow
  have hhost : viaHost = serveLines judge (serveHost env token nonce host others polls) endsSession
      0 (s, {}) reads := by
    unfold viaHost handleStreamHost
    rw [started]
  have hmailbox : viaMailbox = serveLines judge
      (MailboxServer.serveMailbox ui.toUiThread token traffic) endsSession 0 server reads := by
    unfold viaMailbox handleStreamMailbox
    rw [started]
  constructor
  · rcases @handled_of_admitted _ _ _ _ judge (serveHost env token nonce host others polls)
      endsSession reads 0 k (s, {}) read req hat hallow with ⟨at', handled⟩ | closed
    · rw [Nat.zero_add] at handled
      right
      rw [hhost, replies_of_handled handled]
      exact ⟨_, rfl, handleRequestCached_id env host (polls k) _ _ req token nonce⟩
    · exact .inl closed
  · rcases @handled_of_admitted _ _ _ _ judge
      (MailboxServer.serveMailbox ui.toUiThread token traffic) endsSession reads 0 k server read req
      hat hallow with ⟨at', handled⟩ | closed
    · rw [Nat.zero_add] at handled
      right
      have reachable : MailboxServer.Correlated ui server :=
        (MailboxServer.correlated_start idle).run past
      have here : MailboxServer.Correlated ui at' :=
        state_of_handled (fun _ k req h => (h.serveMailbox token traffic k req).2) reachable handled
      rw [hmailbox, replies_of_handled handled]
      exact ⟨at', _, handled, rfl, (here.serveMailbox token traffic k req).1⟩
    · exact .inl closed

/-- A UI thread that keeps nothing and says yes to everything. -/
def agreeingUi : CorrelatedUi Unit Unit where
  serve := fun app posted => (some (.success posted.request.id), app)
  finish := fun app => (none, app)
  react := fun app _ => app
  Owes := fun _ owed => owed = none
  serve_reply := by
    rintro app posted resp - ⟨⟩
    exact ⟨rfl, rfl⟩
  serve_defer := by
    rintro app posted - ⟨⟩
  finish_reply := by
    rintro app id resp ⟨⟩
  finish_defer := by
    rintro app id ⟨⟩
  react_owes := fun _ _ _ h => h

def helloLine : String := "\x7b\"v\":2,\"id\":\"7\",\"op\":\"hello\"\x7d"

/-- Reads one line. -/
def parseHello (buf : List UInt8) : Except String Request :=
  if buf = helloLine.toUTF8.toList then .ok (.new "7" .hello) else .error "expected value"

def helloInput : Incoming := { bytes := helloLine.toUTF8.toList ++ [NEWLINE] }

theorem incomingLines_hello :
    incomingLines 64 helloInput.bytes.length helloInput = [.line helloLine.toUTF8.toList] := by
  decide +kernel

theorem judgeLine_hello :
    judgeLine Env.bare parseHello none none (.line helloLine.toUTF8.toList) =
      .allow (.new "7" .hello) := by
  have hb : lineIsBlank helloLine.toUTF8.toList = false := by decide +kernel
  have hparse : parseHello helloLine.toUTF8.toList = .ok (.new "7" .hello) := if_pos rfl
  have hauth : authorizeRequest Env.bare (.new "7" .hello) none none = .ok () :=
    authorizeRequest_untokened rfl
  exact judgeLine_eq_allow_iff.mpr ⟨_, rfl, hb, hparse, hauth⟩

/-- The replies of the mailbox's loop to the one line of `helloInput`. -/
def helloReplies (traffic : MailboxServer.LineTraffic Unit) : List Response :=
  (handleStreamMailbox Env.bare parseHello none agreeingUi.toUiThread (fun _ => traffic) 64 none
    { app := () } helloInput).filterMap (SessionEvent.replyTo 0)

theorem helloReplies_eq (traffic : MailboxServer.LineTraffic Unit) :
    helloReplies traffic = [(MailboxServer.serveMailbox agreeingUi.toUiThread none
      (fun _ => traffic) { app := () } 0 (.new "7" .hello)).1] := by
  unfold helloReplies handleStreamMailbox beginSession
  dsimp only
  rw [incomingLines_hello]
  unfold serveLines
  rw [judgeLine_hello]
  simp [List.filterMap_cons, SessionEvent.replyTo, serveLines]

/-- The UI thread takes a request from a line that is then answered under the request's id. -/
theorem replies_correlated_hello :
    ∃ at' resp, .handled 0 at' (Request.new "7" .hello) ∈ handleStreamMailbox Env.bare parseHello
        none agreeingUi.toUiThread (fun _ => { waiting := [.take, .serve] }) 64 none { app := () }
        helloInput ∧
      helloReplies { waiting := [.take, .serve] } = [resp] ∧
      (resp.id = "7" ↔ MailboxServer.RepliesUnderId agreeingUi.toUiThread
        { waiting := [.take, .serve] } at' (.new "7" .hello)) := by
  have h := (replies_correlated_iff Env.bare parseHello none 64 none none rfl helloInput countingHost
    (fun _ n => n) (fun _ => 0) 0 agreeingUi (fun _ => { waiting := [.take, .serve] }) () rfl [] 0
    (.line helloLine.toUTF8.toList) (.new "7" .hello) (by rw [incomingLines_hello]; rfl)
    judgeLine_hello).2
  rcases h with ⟨j, hj, -⟩ | h
  · exact absurd hj (Nat.not_lt_zero j)
  · exact h

/-- A line that reads as an authorised request, with a UI thread that does not come to it in time:
the one reply has the id of an error without a request. -/
theorem drain_timeout_loses_id :
    incomingLines 64 helloInput.bytes.length helloInput = [.line helloLine.toUTF8.toList] ∧
      judgeLine Env.bare parseHello none none (.line helloLine.toUTF8.toList) =
        .allow (.new "7" .hello) ∧
      helloReplies {} = [.err "?" DRAIN_TIMED_OUT] ∧
      (Response.err "?" DRAIN_TIMED_OUT).id ≠ (Request.new "7" .hello).id := by
  refine ⟨incomingLines_hello, judgeLine_hello, ?_, by decide⟩
  rw [helloReplies_eq]
  rfl

end Replies

end GpuiAgent
