import GpuiAgent.Host.Dispatch
import GpuiAgent.Server.Tickets

namespace GpuiAgent

open Framework

/-- The reply to an assert. -/
def assertReply (id : String) : Except String Unit → Response
  | .ok () => .success id
  | .error error => .err id error

/-- A UI thread together with the revision it reports and the asserts it evaluates in each state;
both are answered at once. -/
structure ObservedUi (σ ι : Type) extends UiThread σ ι where
  revision : σ → Option Nat
  evaluate : σ → AssertSpec → Except String Unit
  serve_revision : ∀ app posted, posted.request.v = PROTOCOL_VERSION →
    posted.request.op = .revision →
      (serve app posted).1 = some { Response.success posted.request.id with rev := revision app }
  serve_assert : ∀ app posted spec, posted.request.v = PROTOCOL_VERSION →
    posted.request.op = .assert spec →
      (serve app posted).1 = some (assertReply posted.request.id (evaluate app spec))

/-- A host whose UI thread answers every request with `handle_request`. -/
def AgentHost.observedUi {σ ι : Type} (env : Env) (host : AgentHost σ) (polls : Nat)
    (react : σ → ι → σ) : ObservedUi σ ι where
  serve := fun s posted =>
    let (resp, s) := handleRequest env host polls s posted.request none none
    (some resp, s)
  finish := fun s => (none, s)
  react := react
  revision := host.revision
  evaluate := fun s spec => assertTree env (TreeCache.snapshot host s {}).1 spec
  serve_revision := by
    intro s posted current op
    simp only [handleRequest, handleRequestCached, authorizeRequest_untokened current, op]
  serve_assert := by
    intro s posted spec current op
    simp only [handleRequest, handleRequestCached, authorizeRequest_untokened current, op]
    cases assertTree env (TreeCache.snapshot host s {}).1 spec <;> rfl

/-- Where a `wait_until` call stands. `probing` and `asserting` hold the ticket it waits for,
`posting` and `asserting` the revision of the last probe. -/
inductive WaitPhase where
  | top
  | probing (ticket : Nat)
  | posting (probedRev : Option Nat)
  | asserting (ticket : Nat) (probedRev : Option Nat)
  | returned (resp : Response)

/-- The state of `wait_until_via_mailbox`, with the tickets of the asserts it has posted and the
revisions at which it skipped one. -/
structure WaitUntilCall where
  checkedRev : Option (Option Nat) := none
  phase : WaitPhase := .top
  asserts : List Nat := []
  skipped : List Nat := []

/-- The server with one `wait_until` call in progress. -/
structure Waiting (σ : Type) where
  server : MailboxServer σ
  call : WaitUntilCall := {}

/-- A step of the call, or of any other thread. `late` says that the deadline has passed. -/
inductive WaitEvent (ι : Type) where
  | call (expired late : Bool)
  | other (e : MailboxEvent ι)

namespace Waiting

variable {σ ι : Type} (req : Request) (spec : AssertSpec)

/-- The probe's answer: skip the assert if it is the revision last checked. -/
def probed (call : WaitUntilCall) (late : Bool) (answer : Except String Response) : WaitUntilCall :=
  match answer with
  | .error _ => { call with phase := .posting none }
  | .ok resp => match resp.rev with
    | none => { call with phase := .posting none }
    | some rev =>
      if call.checkedRev = some (some rev) then
        { call with
          phase := if late then .returned (.err req.id "wait_until timed out") else .top
          skipped := call.skipped ++ [rev] }
      else { call with phase := .posting (some rev) }

/-- The assert's answer: a reply that is not ok counts as checked at the probed revision. -/
def asserted (call : WaitUntilCall) (probedRev : Option Nat) (late : Bool)
    (answer : Except String Response) : WaitUntilCall :=
  match answer with
  | .error error => { call with phase := .returned (.err req.id error) }
  | .ok resp =>
    if resp.ok then { call with phase := .returned resp }
    else
      let checkedRev := if probedRev.isSome then some probedRev else call.checkedRev
      let lastErr := resp.error.getD "assert failed"
      let phase :=
        if isInViewportUnavailable lastErr && contains lastErr "headless" then
          .returned (.err req.id lastErr)
        else if late then .returned (.err req.id s!"wait_until timed out: {lastErr}")
        else .top
      { call with checkedRev, phase }

/-- One step of `wait_until_via_mailbox`. -/
def stepCall (w : Waiting σ) (expired late : Bool) : Waiting σ :=
  let ticket := w.server.requests.length
  match w.call.phase with
  | .top =>
    ⟨w.server.push { req with op := .revision }, { w.call with phase := .probing ticket }⟩
  | .probing ticket =>
    let server := w.server.wait ticket expired
    match server.answers.lookup ticket with
    | none => ⟨server, w.call⟩
    | some answer => ⟨server, probed req w.call late answer⟩
  | .posting probedRev =>
    ⟨w.server.push { req with op := .assert spec },
      { w.call with
        phase := .asserting ticket probedRev
        asserts := w.call.asserts ++ [ticket] }⟩
  | .asserting ticket probedRev =>
    let server := w.server.wait ticket expired
    match server.answers.lookup ticket with
    | none => ⟨server, w.call⟩
    | some answer => ⟨server, asserted req w.call probedRev late answer⟩
  | .returned _ => w

def step (ui : UiThread σ ι) (w : Waiting σ) : WaitEvent ι → Waiting σ
  | .call expired late => w.stepCall req spec expired late
  | .other e => { w with server := w.server.step ui e }

def run (ui : UiThread σ ι) (w : Waiting σ) (events : List (WaitEvent ι)) : Waiting σ :=
  events.foldl (step req spec ui) w

/-- An assert of this call was evaluated on a tree of revision `rev` or later, and failed. -/
def Evaluated (ui : ObservedUi σ ι) (w : Waiting σ) (rev : Nat) : Prop :=
  ∃ e ∈ w.server.served, e.posted.ticket ∈ w.call.asserts ∧ e.posted.request.op = .assert spec ∧
    (∃ error, ui.evaluate e.app spec = .error error) ∧ ∃ later ∈ ui.revision e.app, rev ≤ later

end Waiting

end GpuiAgent
