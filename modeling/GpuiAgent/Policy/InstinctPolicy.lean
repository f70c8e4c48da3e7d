import GpuiAgent.Framework.Result
import GpuiAgent.Policy.ActionSpace
import GpuiAgent.Policy.Goal

namespace GpuiAgent

open Framework

def HABITUATION_STEP : Nat := 250

/-- One candidate the policy considered. -/
structure RankedAction where
  id : ActionId
  kind : ActionKind
  label : String
  confidenceMillis : Nat
  deriving DecidableEq

/-- A choice from the offered actions. -/
structure PolicyDecision where
  actionId : ActionId
  kind : ActionKind
  targetLabel : String
  confidenceMillis : Nat
  operationRanked : List RankedAction
  targetRanked : List RankedAction
  deriving DecidableEq

inductive PolicyOutcome where
  | choice (d : PolicyDecision)
  | abstain (reason : String) (operationRanked targetRanked : List RankedAction)
  deriving DecidableEq

inductive PolicyError where
  | emptyGoal | emptyActionSpace | internal (msg : String)
  deriving DecidableEq

def PolicyError.display : PolicyError → String
  | emptyGoal => "agent goal is empty"
  | emptyActionSpace => "action space has no candidates"
  | internal msg => s!"policy internal: {msg}"

/-- A step that was dispatched, with what verification saw. -/
structure HistoryEntry where
  step : Nat
  actionId : ActionId
  kind : ActionKind
  label : String
  verification : String
  deriving DecidableEq

def HistoryEntry.toJson (entry : HistoryEntry) : Json :=
  .object [("effect", .string entry.verification), ("id", .string entry.actionId),
    ("op", .string entry.kind.asStr)]

/-- An option given to the arbiter, with its evidence and habituation weight. -/
structure ArbitrationOption where
  id : String
  evidence : Confidence
  weight : Confidence

/-- The arbiter's answer, options as the ids it has for them. -/
inductive Answer where
  | choice (option : Option String)
  | abstain
  | other (debug : String)

structure Arbitration where
  answer : Answer
  ranked : List (Option String × Option Confidence)

/-- The arbiter behind a profile: the confidence a lone candidate needs, and the arbitration of the
options of a question. -/
structure Instinct where
  minConfidence : Nat
  arbitrate : String → List ArbitrationOption → Except String Arbitration

def PAYLOAD_VERBS : List String :=
  ["add", "create", "new", "insert", "type", "enter", "fill", "input", "submit"]

def TOGGLE_WORDS : List String :=
  ["mark", "marked", "done", "check", "checked", "complete", "completed", "toggle", "tick",
    "ticked"]

def LOCATIVES : List String := ["in", "on", "inside", "under", "to", "from", "into"]

def TURN_WORDS : List String := ["turnon", "turnedon", "turnoff", "enable", "disable"]

def evidenceOf (action : OfferedAction) : EvidenceTarget :=
  ⟨action.id, action.label, action.role, action.kind.operationKind⟩

/-- The last element with the greatest key. -/
def maxByKey {α : Type*} (key : α → Nat) : List α → Option α
  | [] => none
  | a :: as =>
    match maxByKey key as with
    | none => some a
    | some b => if key b < key a then some a else some b

/-- Verification saw a real effect. -/
def satisfiedEntry (entry : HistoryEntry) : Bool :=
  ["success", "state-changed", "navigation"].contains entry.verification

/-- The last step was `id` and had a real effect. -/
def satisfiedByHistory (history : List HistoryEntry) (id : ActionId) : Bool :=
  history.getLast?.any fun entry => entry.actionId = id && satisfiedEntry entry

def offeredKinds (space : ActionSpace) : List ActionKind :=
  [ActionKind.click, .type, .setValue, .key, .keybinding, .invoke, .done, .blocked, .wait].filter
    fun kind => space.containsKind kind && (kind.isControl || !(space.targetsOf kind).isEmpty)

/-- Every trailing run of the same action without effect costs a step. -/
def habituationWeight (id : ActionId) (history : List HistoryEntry) : Confidence :=
  let fruitless := history.reverse.takeWhile fun entry =>
    entry.actionId = id && ["no-effect", "wrong-effect"].contains entry.verification
  .saturating (1000 - HABITUATION_STEP * fruitless.length)

def dampedUrge (evidence weight : Confidence) : Confidence :=
  .saturating (evidence.get * weight.get / 1000)

/-- The standard profile: the strongest urge wins from 750 on, 150 ahead of the next. -/
def Instinct.standard : Instinct where
  minConfidence := 750
  arbitrate _ options :=
    let urges := (options.map fun o => (o.id, dampedUrge o.evidence o.weight)).insertionSort
      fun a b => b.2.get ≤ a.2.get
    let clear := match urges with
      | [] => none
      | [top] => some top
      | top :: second :: _ => if second.2.get + 150 ≤ top.2.get then some top else none
    .ok {
      answer := match clear with
        | some top => if 750 ≤ top.2.get then .choice (some top.1) else .abstain
        | none => .abstain
      ranked := urges.map fun urge => (some urge.1, some urge.2) }

def chosenKindIsTerminal (kind : ActionKind) : Bool := kind = .done || kind = .blocked

def rankedKind (kind : ActionKind) (conf : Confidence) : Except PolicyError RankedAction := do
  let id ← (ActionId.tryNew kind.asStr).mapError fun e => .internal e.display
  return ⟨id, kind, kind.asStr, conf.get⟩

def rankedAction (action : OfferedAction) (conf : Confidence) : RankedAction :=
  ⟨action.id, action.kind, action.label, conf.get⟩

/-- A kind the operation head weighs, with its id and score. -/
structure OperationHead where
  kind : ActionKind
  id : ActionId
  score : Confidence

/-- What the two heads settle on. -/
inductive Verdict where
  | operationAbstain (operationRanked : List RankedAction)
  | control (kind : ActionKind) (operationRanked : List RankedAction)
  | noTargets (kind : ActionKind) (operationRanked : List RankedAction)
  | targetAbstain (operationRanked targetRanked : List RankedAction)
  | target (action : OfferedAction) (operationRanked targetRanked : List RankedAction)

section Heads

variable (lex : Lexicon) (inst : Instinct)

/-- Clause-level evidence for one decision. -/
def goalEvidence (goal : String) (space : ActionSpace) : GoalEvidence :=
  let literals := quotedLiterals goal
  let unplacedLiteral := literals.any fun lit => !space.literalPlaced (tokenize lex lit)
  let tokens := tokenize lex goal
  let verb := tokens.head?.getD ""
  let payloadTarget := match space.targetsOf .type with
    | [only] => if PAYLOAD_VERBS.contains verb && unplacedLiteral then some only.id else none
    | _ => none
  let soleCheckbox := match (space.targetsOf .click).filter fun a => a.role = some "checkbox" with
    | [only] => some only.id
    | _ => none
  let folded := fold lex goal
  let toggleIntent := (tokens.any fun t => TOGGLE_WORDS.contains t) ||
    TURN_WORDS.any fun w => contains folded w
  let locatives := ((tokens.zip tokens.tail).filter fun w => LOCATIVES.contains w.1).map Prod.snd
  { literals, unplacedLiteral, verb, toggleIntent, locatives
    navLocatives := locatives.filter fun w => !space.locationShown lex w
    payloadTarget, soleCheckbox
    hasLiteral := !literals.isEmpty }

/-- The acted-on label is what the clause asked for: it covers the clause's object, or it names the
verb and every literal of the clause has landed in a label. -/
def clauseEffectDone (goal lastLabel : String) (ctx : GoalEvidence) (space : ActionSpace) : Bool :=
  objectCovered lex goal lastLabel ctx ||
    (!ctx.literals.isEmpty && verbMatches lex ctx.verb lastLabel &&
      ctx.literals.all fun lit => space.literalInLabel (tokenize lex lit))

def operationHead (goal : String) (ctx : GoalEvidence) (space : ActionSpace) (kind : ActionKind) :
    Except PolicyError OperationHead := do
  let best := maxByKey (fun a => (scoreActionCtx lex goal (evidenceOf a) ctx).get)
    (space.targetsOf kind)
  let id ←
    if kind.isControl then (ActionId.tryNew kind.asStr).mapError fun e => .internal e.display
    else okOr (.internal s!"no target for {kind.asStr}") (best.map (·.id))
  return ⟨kind, id, scoreOperationCtx lex goal kind.operationKind (best.map evidenceOf) ctx⟩

def rankedFromAnswerKinds (arbitration : Arbitration) : Except PolicyError (List RankedAction) :=
  match arbitration.answer with
  | .other _ => .ok []
  | _ => arbitration.ranked.mapM fun (option, urge) => do
    let id ← okOr (.internal "missing ranked operation") option
    let kind ← okOr (.internal s!"bad kind {id}") (ActionKind.parse id)
    let urge ← okOr (.internal "missing operation urge") urge
    rankedKind kind urge

/-- The operation head: a kind, or none when the arbiter abstains. -/
def chooseKinds (heads : List OperationHead) (history : List HistoryEntry) :
    Except PolicyError (Option ActionKind × List RankedAction) :=
  match heads with
  | [] => .ok (none, [])
  | [head] => do
    let urge := dampedUrge head.score (habituationWeight head.id history)
    let ranked ← rankedKind head.kind urge
    return (if urge.get < inst.minConfidence then none else some head.kind, [ranked])
  | heads => do
    let arbitration ← (inst.arbitrate "operation" (heads.map fun head =>
      ⟨head.kind.asStr, head.score, habituationWeight head.id history⟩)).mapError .internal
    let ranked ← rankedFromAnswerKinds arbitration
    match arbitration.answer with
    | .choice option =>
      let id ← okOr (.internal "missing chosen kind") option
      let kind ← okOr (.internal s!"bad kind {id}") (ActionKind.parse id)
      return (some kind, ranked)
    | .abstain => return (none, ranked)
    | .other debug => throw (.internal s!"unexpected operation answer {debug}")

def rankedFromAnswerTargets (arbitration : Arbitration)
    (scored : List (OfferedAction × Confidence)) : Except PolicyError (List RankedAction) :=
  match arbitration.answer with
  | .other _ => .ok []
  | _ => arbitration.ranked.mapM fun (option, urge) => do
    let id ← okOr (.internal "missing ranked target") option
    let row ← okOr (.internal "ranked target not in space") (scored.find? fun row => row.1.id = id)
    let urge ← okOr (.internal "missing target urge") urge
    return rankedAction row.1 urge

/-- The target head over the offers of one kind. -/
def chooseTargets (scored : List (OfferedAction × Confidence)) (history : List HistoryEntry) :
    Except PolicyError (Option OfferedAction × List RankedAction) :=
  match scored with
  | [] => .ok (none, [])
  | [(action, conf)] =>
    let urge := dampedUrge conf (habituationWeight action.id history)
    .ok (if urge.get < inst.minConfidence then none else some action, [rankedAction action urge])
  | scored => do
    let arbitration ← (inst.arbitrate "target" (scored.map fun (action, conf) =>
      ⟨action.id, conf, habituationWeight action.id history⟩)).mapError .internal
    let ranked ← rankedFromAnswerTargets arbitration scored
    match arbitration.answer with
    | .choice option =>
      let id ← okOr (.internal "missing chosen target") option
      let row ← okOr (.internal "chosen target not in space") (scored.find? fun row => row.1.id = id)
      return (some row.1, ranked)
    | .abstain => return (none, ranked)
    | .other debug => throw (.internal s!"unexpected target answer {debug}")

/-- Both heads in turn. -/
def arbitrated (goal : String) (ctx : GoalEvidence) (space : ActionSpace)
    (history : List HistoryEntry) (heads : List OperationHead) : Except PolicyError Verdict := do
  let (chosen, operationRanked) ← chooseKinds inst heads history
  match chosen with
  | none => return .operationAbstain operationRanked
  | some kind =>
    if kind.isControl then return .control kind operationRanked
    else
      let targets := space.targetsOf kind
      if targets.isEmpty then return .noTargets kind operationRanked
      else
        let (chosen, targetRanked) ← chooseTargets inst
          (targets.map fun a => (a, scoreActionCtx lex goal (evidenceOf a) ctx)) history
        match chosen with
        | none => return .targetAbstain operationRanked targetRanked
        | some action => return .target action operationRanked targetRanked

end Heads

/-- The choice of `DONE`, where it is offered. -/
def doneChoice (space : ActionSpace) (operationRanked targetRanked : List RankedAction) :
    Option PolicyDecision :=
  (space.getStr ActionKind.done.asStr).map fun done =>
    ⟨done.id, .done, done.label, Confidence.MAX.get, operationRanked, targetRanked⟩

/-- The last step had a real effect, and its target is gone or its label is what the clause asked
for. -/
def doneDetected (lex : Lexicon) (goal : String) (ctx : GoalEvidence) (space : ActionSpace)
    (history : List HistoryEntry) : Bool :=
  history.getLast?.any fun last => satisfiedEntry last &&
    ((space.get last.actionId).isNone || clauseEffectDone lex goal last.label ctx space)

/-- A step that would only repeat the last one is replaced by `DONE`. -/
def unlessRepeated (repeated : Bool) (done : Option PolicyDecision) (d : PolicyDecision) :
    PolicyDecision :=
  if repeated then done.getD d else d

/-- A verdict as an outcome: dangerous targets abstain, satisfied repetitions become `DONE`. -/
def settle (lex : Lexicon) (goal : String) (ctx : GoalEvidence) (space : ActionSpace)
    (history : List HistoryEntry) : Verdict → Except PolicyError PolicyOutcome
  | .operationAbstain operationRanked => .ok (.abstain "operation abstain" operationRanked [])
  | .noTargets kind operationRanked =>
    .ok (.abstain s!"no viable targets for {kind.asStr}" operationRanked [])
  | .targetAbstain operationRanked targetRanked =>
    .ok (.abstain "target abstain" operationRanked targetRanked)
  | .control kind operationRanked => do
    let id ← (ActionId.tryNew kind.asStr).mapError fun e => .internal e.display
    let action ← okOr (.internal s!"control `{kind.asStr}` missing from space") (space.get id)
    let ranked ← okOr (.internal "chosen control missing from ranks")
      (operationRanked.find? fun ranked => ranked.kind = kind)
    return .choice (unlessRepeated
      (!chosenKindIsTerminal kind && satisfiedByHistory history action.id)
      (doneChoice space operationRanked [])
      ⟨action.id, kind, action.label, ranked.confidenceMillis, operationRanked, []⟩)
  | .target action operationRanked targetRanked => do
    let ranked ← okOr (.internal "chosen target missing from ranks")
      (targetRanked.find? fun ranked => ranked.id = action.id)
    if action.dangerous then
      return .abstain "needs_confirmation" operationRanked targetRanked
    else
      return .choice (unlessRepeated
        (satisfiedByHistory history action.id && clauseEffectDone lex goal action.label ctx space)
        (doneChoice space operationRanked targetRanked)
        ⟨action.id, action.kind, action.label, ranked.confidenceMillis, operationRanked,
          targetRanked⟩)

/-- The choice of `DONE` by the last step's effect alone. -/
def detectedDone (lex : Lexicon) (goal : String) (ctx : GoalEvidence) (space : ActionSpace)
    (history : List HistoryEntry) : Option PolicyDecision :=
  if doneDetected lex goal ctx space history then doneChoice space [] [] else none

namespace InstinctPolicy

/-- One decision of the local policy. -/
def decide (lex : Lexicon) (inst : Instinct) (space : ActionSpace) (goal : UiGoal)
    (history : List HistoryEntry) : Except PolicyError PolicyOutcome :=
  if goal.isEmpty then .error .emptyGoal
  else if space.isEmpty then .error .emptyActionSpace
  else do
    let ctx := goalEvidence lex goal.text space
    let heads ← (offeredKinds space).mapM (operationHead lex goal.text ctx space)
    match detectedDone lex goal.text ctx space history with
    | some done => return .choice done
    | none =>
      let verdict ← arbitrated lex inst goal.text ctx space history heads
      settle lex goal.text ctx space history verdict

/-- A decision is either `DONE` by the last step's effect or what the arbitration settles on. -/
theorem decide_cases {lex : Lexicon} {inst : Instinct} {space : ActionSpace} {goal : UiGoal}
    {history : List HistoryEntry} {outcome : PolicyOutcome}
    (h : decide lex inst space goal history = .ok outcome) :
    ∃ heads, (offeredKinds space).mapM (operationHead lex goal.text
        (goalEvidence lex goal.text space) space) = .ok heads ∧
      ((∃ done, detectedDone lex goal.text (goalEvidence lex goal.text space) space history =
          some done ∧ outcome = .choice done) ∨
        ∃ verdict, arbitrated lex inst goal.text (goalEvidence lex goal.text space) space history
            heads = .ok verdict ∧
          settle lex goal.text (goalEvidence lex goal.text space) space history verdict =
            .ok outcome) := by
  unfold decide at h
  split_ifs at h
  obtain ⟨heads, hheads, h⟩ := bind_eq_ok.mp h
  refine ⟨heads, hheads, ?_⟩
  cases hdone : detectedDone lex goal.text (goalEvidence lex goal.text space) space history with
  | some done =>
    rw [hdone] at h
    cases h
    exact .inl ⟨done, rfl, rfl⟩
  | none =>
    rw [hdone] at h
    obtain ⟨verdict, hverdict, h⟩ := bind_eq_ok.mp h
    exact .inr ⟨verdict, hverdict, h⟩

end InstinctPolicy

end GpuiAgent
