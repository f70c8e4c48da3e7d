import GpuiAgent.Framework.Word
import GpuiAgent.Host.Dispatch
import GpuiAgent.Policy.Clause
import GpuiAgent.Policy.Escalate

namespace GpuiAgent

open Framework

/-- Bounds of a run. -/
structure RunnerCaps where
  maxSteps : Nat := 20
  maxConsecutiveNoEffect : Nat := 3
  maxConsecutiveStale : Nat := 2
  maxWaitMs : Nat := 30000

def WAIT_POLL_MS : Nat := 250

/-- A named candidate of an abstain outcome. -/
structure Candidate where
  id : String
  op : String
  role : String
  name : String
  confidenceMillis : Nat
  deriving DecidableEq

/-- The best `k` rows of a ranking. -/
def topCandidates (space : ActionSpace) (ranked : List RankedAction) (k : Nat) : List Candidate :=
  (ranked.take k).map fun r =>
    let offered := space.get r.id
    { id := r.id
      op := r.kind.asStr
      role := (offered.bind (·.role)).getD ""
      name := (offered.map (·.label)).getD r.label
      confidenceMillis := r.confidenceMillis }

/-- One executed step of a receipt. -/
structure StepRecord where
  step : Nat
  clause : String
  op : String
  id : String
  name : String
  confidenceMillis : Nat
  verification : String
  deriving DecidableEq

inductive RunOutcome where
  | done
  | blocked (reason : String)
  | abstained (reason : String) (candidates : List Candidate)
  | capHit
  deriving DecidableEq

namespace RunOutcome

def exitCode : RunOutcome → Nat
  | done => 0
  | blocked _ | abstained _ _ | capHit => 2

def label : RunOutcome → String
  | done => "done"
  | blocked _ => "blocked"
  | abstained _ _ => "abstained"
  | capHit => "cap_hit"

def reason : RunOutcome → Option String
  | blocked reason | abstained reason _ => some reason
  | done | capHit => none

def candidates : RunOutcome → List Candidate
  | abstained _ candidates => candidates
  | done | blocked _ | capHit => []

end RunOutcome

structure RunReceipt where
  goal : String
  clauses : List String
  outcomeKind : RunOutcome
  outcome : String
  reason : Option String
  candidates : List Candidate
  steps : List StepRecord
  finalRev : Option Nat
  calls : Nat
  deriving DecidableEq

/-- The wire op of a decision. Node-bound kinds carry the fingerprint of the offer; `invokeArgs`
resolves the arguments of an invoke and may change the caller's state. -/
def opForDecision {σ : Type*} (d : PolicyDecision) (action : OfferedAction)
    (payload : Option String) (delivery : DeliveryMode) (clause : String)
    (keybindings : List KeybindingInfo)
    (invokeArgs : σ → String → String → Except String Json × σ) (world : σ) :
    Except String Op × σ :=
  let target := okOr s!"{d.actionId} has no dispatch target" action.target
  let gated (op : Op) : Except String Op :=
    (okOr s!"{d.actionId} has no fingerprint" action.fingerprint).map op.withFingerprint
  match d.kind with
  | .click => (do gated (.click (← target) delivery none), world)
  | .type => (do gated (.type (← target) (payload.getD "") delivery none), world)
  | .setValue => (do gated (.setValue (← target) (payload.getD "") none), world)
  | .key => (do
      let t ← target
      let key ← action.key
      gated (.key t key delivery none), world)
  | .keybinding => (do
      let id ← target
      let kb ← okOr s!"keybinding `{id}` not in catalog" (keybindings.find? fun kb => kb.id = id)
      return .keybinding kb.id (some kb.chord) kb.scope false false, world)
  | .invoke =>
    match target with
    | .error e => (.error e, world)
    | .ok name =>
      let (args, world) := invokeArgs world name clause
      (args.map fun args => .invoke name args, world)
  | kind => (.error s!"cannot dispatch kind {kind.asStr}", world)

/-- The runner with what it runs against: `rpc` is the host behind the client, `decide` the policy,
`resolveText` the optional text endpoint, `invokeArgs` the schema arguments. The decoders are the
derived JSON readers. -/
structure Runner (σ : Type) where
  lex : Lexicon
  rpc : σ → Op → Except String Response × σ
  decide : σ → ActionSpace → UiGoal → List HistoryEntry → Except PolicyError PolicyOutcome × σ
  resolveText : Option (σ → UiGoal → ActionId → String → UInt64 →
    Except TextError TextResolution × σ) := none
  invokeArgs : σ → String → String → Except String Json × σ
  decodeDiff : Json → Except String TreeDiff
  decodeKeybindings : Json → Except String (List KeybindingInfo)
  delivery : DeliveryMode := .semantic
  invokes : List OfferedInvoke := []
  caps : RunnerCaps := {}
  waitPollMs : Nat := WAIT_POLL_MS
  waitPollMs_pos : 0 < waitPollMs := by decide

/-- The world a run acts on, and the ops sent to it. -/
structure Session (σ : Type) where
  world : σ
  calls : Nat := 0

/-- The variables of the run loop. -/
structure RunState (σ : Type) where
  session : Session σ
  tree : UiTree
  rev : Option Nat
  history : List HistoryEntry := []
  typed : List String := []
  steps : List StepRecord := []
  noEffect : Nat := 0
  stale : Nat := 0
  waitedMs : Nat := 0
  clauseIdx : Nat := 0

/-- What one pass through the loop ends in. -/
inductive Turn (σ : Type) where
  | next (s : RunState σ)
  | stop (outcome : RunOutcome) (s : RunState σ)
  | fail (error : String)
  | panic

namespace Runner

variable {σ : Type} (r : Runner σ)

/-- Send an op and expect `ok`. -/
def expectOk (session : Session σ) (op : Op) : Except String Response × Session σ :=
  let (resp, world) := r.rpc session.world op
  let answer := resp.bind fun resp =>
    if resp.ok then .ok resp else .error (resp.error.getD "request failed")
  (answer, ⟨world, session.calls + 1⟩)

def observeFull (session : Session σ) : Except String UiTree × Session σ :=
  let (resp, session) := r.expectOk session (.snapshot none none none)
  (resp.bind fun resp => okOr "host returned no ui tree" resp.tree, session)

/-- `snapshot since`: whether the tree may have changed, the tree and the revision reported. -/
def observeSince (session : Session σ) (tree : UiTree) (rev : Option Nat) :
    Except String (Bool × UiTree × Option Nat) × Session σ :=
  match rev with
  | none =>
    let (tree, session) := r.observeFull session
    (tree.map fun tree => (true, tree, tree.rev), session)
  | some since =>
    let (resp, session) := r.expectOk session (.snapshot (some since) none none)
    (resp.bind fun resp =>
      let result := resp.result.getD .null
      if (result.get "unchanged").isSome then .ok (false, tree, resp.rev)
      else match result.get "diff" with
        | some diff => (r.decodeDiff diff).map fun diff => (true, applyDiff tree diff, resp.rev)
        | none => .ok (true, resp.tree.getD tree, resp.rev), session)

def diffIsEmpty (old new : UiTree) : Bool :=
  let d := diffTrees old new
  d.added.isEmpty && d.removed.isEmpty && d.changed.isEmpty

def catalogFrom (result : Option Json) : Except String (List KeybindingInfo) :=
  match result.bind fun v => v.get "keybindings" with
  | none | some .null => .ok []
  | some v => (r.decodeKeybindings v).mapError fun err => s!"bad keybindings response: {err}"

def keybindingCatalog (session : Session σ) : Except String (List KeybindingInfo) × Session σ :=
  let (resp, session) := r.expectOk session .keybindings
  (resp.bind fun resp => r.catalogFrom resp.result, session)

/-- Observe again and go on with the new tree. -/
def reobserve (s : RunState σ) (k : RunState σ → Turn σ) : Turn σ :=
  let (answer, session) := r.observeSince s.session s.tree s.rev
  match answer with
  | .error e => .fail e
  | .ok (_, tree, rev) => k { s with session, tree, rev := rev <|> s.rev }

/-- Sleep for one poll, then observe. -/
def waitPoll (s : RunState σ) : Turn σ :=
  r.reobserve { s with waitedMs := wrappingAdd s.waitedMs r.waitPollMs } .next

/-- A `wait for` clause: no policy and no action. -/
def waitForTurn (target : String) (s : RunState σ) : Turn σ :=
  if onScreen s.tree target then .next { s with clauseIdx := s.clauseIdx + 1 }
  else if r.caps.maxWaitMs ≤ s.waitedMs then
    .stop (.blocked s!"wait_for `{target}` exceeded wait budget") s
  else r.waitPoll s

/-- Verification of a dispatched op against the tree observed after it. -/
def verify (d : PolicyDecision) (action : OfferedAction) (payload : Option String) (tree : UiTree)
    (changed : Bool) : String :=
  if d.kind = .type ∨ d.kind = .setValue then
    let current := (action.target.bind tree.find).bind fun n => n.label.value
    match payload, current with
    | some want, some got => if got = want then "success" else "wrong-effect"
    | some _, none => "wrong-effect"
    | none, _ => if changed then "state-changed" else "no-effect"
  else if changed then "state-changed" else "no-effect"

/-- The payload of a field: the clause's own, or the endpoint's where the clause has none and the
field is not sensitive. -/
def payloadFor (goalText : String) (d : PolicyDecision) (action : OfferedAction)
    (s : RunState σ) : Except TextError (Option String) × σ :=
  let world := s.session.world
  if d.kind = .type ∨ d.kind = .setValue then
    let ctx : TextContext :=
      ⟨.new goalText, action.label, action.role.getD "", s.typed, (s.rev.getD 0).toUInt64⟩
    match DeterministicTextResolver.resolve ctx with
    | .ok res => (.ok (some res.text), world)
    | .error .missing =>
      match r.resolveText with
      | none => (.error .missing, world)
      | some endpoint =>
        if sensitiveField r.lex ctx.fieldRole ctx.fieldLabel then (.error .missing, world)
        else
          let (res, world) := endpoint world ctx.goal d.actionId ctx.fieldLabel ctx.fingerprint
          (res.map fun res => some res.text, world)
    | .error err => (.error err, world)
  else (.ok none, world)

def textReason : TextError → String
  | .missing => "text_missing"
  | .ambiguous => "text_ambiguous"
  | .invalid m => s!"text_invalid:{m}"
  | .abstain m => s!"text_abstain:{m}"

/-- A policy abstain, or a block where the escalation protocol was violated. -/
def abstainOutcome (space : ActionSpace) (reason : String)
    (operationRanked targetRanked : List RankedAction) : RunOutcome :=
  if startsWith reason ESCALATION_PROTOCOL then .blocked reason
  else .abstained reason
    (topCandidates space (if targetRanked.isEmpty then operationRanked else targetRanked) 8)

def textOutcome (space : ActionSpace) (d : PolicyDecision) (err : TextError) : RunOutcome :=
  let reason := textReason err
  if contains reason ESCALATION_PROTOCOL then .blocked reason
  else .abstained reason (topCandidates space d.targetRanked 8)

/-- A stale refusal: nothing was dispatched; observe and decide again. The counter is a `u32`. -/
def staleTurn (space : ActionSpace) (d : PolicyDecision) (err : String) (s : RunState σ) :
    Turn σ :=
  let s := { s with stale := (s.stale + 1) % 2 ^ 32 }
  if r.caps.maxConsecutiveStale < s.stale then
    .stop (.abstained s!"stale: {err}" (topCandidates space d.targetRanked 8)) s
  else r.reobserve s .next

/-- A dispatched step in the run's records. -/
def recorded (clause : String) (d : PolicyDecision) (payload : Option String)
    (verification : String) (s : RunState σ) : RunState σ :=
  let n := s.steps.length + 1
  { s with
    noEffect :=
      if verification = "success" ∨ verification = "state-changed" then 0 else s.noEffect + 1
    history := s.history ++ [⟨n, d.actionId, d.kind, d.targetLabel, verification⟩]
    typed := s.typed ++ payload.toList
    steps := s.steps ++ [⟨n, clause, d.kind.asStr, d.actionId, d.targetLabel, d.confidenceMillis,
      verification⟩] }

/-- Verify and record a dispatched step; `s` holds the tree observed after it, `old` the one
before. -/
def recordTurn (clause : String) (d : PolicyDecision) (action : OfferedAction)
    (payload : Option String) (old : UiTree) (s : RunState σ) : Turn σ :=
  let changed := !diffIsEmpty old s.tree
  let s := recorded clause d payload (verify d action payload s.tree changed) s
  if r.caps.maxConsecutiveNoEffect ≤ s.noEffect then
    .stop (.blocked (s!"{s.noEffect} consecutive no-effect/wrong-effect actions " ++
      s!"(last: {d.targetLabel})")) s
  else .next s

/-- Dispatch a choice. -/
def dispatchTurn (keybindings : List KeybindingInfo) (clause goalText : String)
    (space : ActionSpace) (d : PolicyDecision) (s : RunState σ) : Turn σ :=
  match space.get d.actionId with
  | none => .fail "chosen action left the space"
  | some action =>
    let (payload, world) := r.payloadFor goalText d action s
    match payload with
    | .error err => .stop (textOutcome space d err) { s with session := { s.session with world } }
    | .ok payload =>
      let (op, world) := opForDecision d action payload r.delivery clause keybindings r.invokeArgs
        world
      match op with
      | .error e => .fail e
      | .ok op =>
        let (resp, session) := r.expectOk { s.session with world } op
        match resp with
        | .error err =>
          if isStaleDispatchError err then r.staleTurn space d err { s with session }
          else .fail err
        | .ok _ =>
          r.reobserve { s with session, stale := 0 } (r.recordTurn clause d action payload s.tree)

/-- Act on the policy's outcome for a clause. -/
def outcomeTurn (clauses : List String) (keybindings : List KeybindingInfo)
    (clause goalText : String) (space : ActionSpace) (s : RunState σ) :
    Except PolicyError PolicyOutcome → Turn σ
  | .error e => .fail e.display
  | .ok (.abstain reason operationRanked targetRanked) =>
    .stop (abstainOutcome space reason operationRanked targetRanked) s
  | .ok (.choice d) =>
    match d.kind with
    | .done =>
      let s := { s with clauseIdx := s.clauseIdx + 1 }
      if clauses.length ≤ s.clauseIdx then .stop .done s else .next s
    | .blocked => .stop (.blocked "policy chose blocked") s
    | .wait => if r.caps.maxWaitMs ≤ s.waitedMs then .stop .capHit s else r.waitPoll s
    | _ => r.dispatchTurn keybindings clause goalText space d s

/-- The offers of the observation at hand. -/
def space (keybindings : List KeybindingInfo) (s : RunState σ) : ActionSpace :=
  .fromTree r.lex s.tree keybindings r.invokes

/-- An `Act` clause: one decision of the policy. -/
def actTurn (clauses : List String) (keybindings : List KeybindingInfo) (clause goalText : String)
    (s : RunState σ) : Turn σ :=
  let space := r.space keybindings s
  let (outcome, world) := r.decide s.session.world space (.new goalText) s.history
  r.outcomeTurn clauses keybindings clause goalText space
    { s with session := { s.session with world } } outcome

/-- One pass through the loop body. -/
def turn (clauses : List String) (keybindings : List KeybindingInfo) (s : RunState σ) : Turn σ :=
  match clauses[s.clauseIdx]? with
  | none => .stop .done s
  | some c =>
    let clause := substitutePronouns c s.typed
    match clauseMode r.lex clause with
    | none => .panic
    | some (_, .waitFor target) => r.waitForTurn target s
    | some (goalText, .act) => r.actTurn clauses keybindings clause goalText s

/-- At most `fuel` passes through the loop. -/
def loop (clauses : List String) (keybindings : List KeybindingInfo) :
    Nat → RunState σ → Turn σ
  | 0, s => .next s
  | fuel + 1, s =>
    if s.steps.length < r.caps.maxSteps then
      match r.turn clauses keybindings s with
      | .next s => loop clauses keybindings fuel s
      | t => t
    else .stop .capHit s

/-- The clauses of a goal; none where a slice panics. -/
def goalClauses (goal : String) : Option (List String) :=
  ((splitSequentialClauses goal).mapM (splitWait r.lex)).map List.flatten

/-- What the loop starts with: the first snapshot and the keybinding catalog. -/
def start (session : Session σ) : Except String (List KeybindingInfo × RunState σ) :=
  let (tree, session) := r.observeFull session
  match tree with
  | .error e => .error e
  | .ok tree =>
    let (keybindings, session) := r.keybindingCatalog session
    keybindings.map fun keybindings => (keybindings, { session, tree, rev := tree.rev })

variable {r} in
/-- The loop starts from the first snapshot, with everything else at its default. -/
theorem start_fresh {session : Session σ} {keybindings : List KeybindingInfo} {s : RunState σ}
    (h : r.start session = .ok (keybindings, s)) :
    ∃ session' tree, s = { session := session', tree, rev := tree.rev } := by
  unfold start at h
  rcases htree : r.observeFull session with ⟨e | tree, session'⟩
  · simp [htree] at h
  · rcases hcatalog : r.keybindingCatalog session' with ⟨e | catalog, session''⟩
    · simp [htree, hcatalog, Except.map] at h
    · simp only [htree, hcatalog, Except.map, Except.ok.injEq, Prod.mk.injEq] at h
      exact ⟨session'', tree, h.2.symm⟩

/-- The receipt of a run that stopped. -/
def receipt (goal : String) (clauses : List String) (outcome : RunOutcome) (s : RunState σ) :
    RunReceipt where
  goal
  clauses
  outcomeKind := outcome
  outcome := outcome.label
  reason := outcome.reason
  candidates := outcome.candidates
  steps := s.steps
  finalRev := s.rev
  calls := s.session.calls

/-- How a run of at most `fuel` passes ends. -/
inductive Ending where
  | receipt (receipt : RunReceipt)
  | fail (error : String)
  | panic
  | running
  deriving DecidableEq

def run (fuel : Nat) (goal : String) (session : Session σ) : Ending :=
  match r.goalClauses goal with
  | none => .panic
  | some clauses =>
    match r.start session with
    | .error e => .fail e
    | .ok (keybindings, s) =>
      match r.loop clauses keybindings fuel s with
      | .next _ => .running
      | .stop outcome s => .receipt (receipt goal clauses outcome s)
      | .fail e => .fail e
      | .panic => .panic

end Runner

end GpuiAgent
