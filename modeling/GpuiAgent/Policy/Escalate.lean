import GpuiAgent.Policy.InstinctPolicy
import GpuiAgent.Policy.Text

namespace GpuiAgent

open Framework

/-- Prefix of an abstain reason that marks a violation of the escalation protocol. -/
def ESCALATION_PROTOCOL : String := "escalation:"

/-- Bytes accepted from a `text` reply. -/
def TEXT_CAP : Nat := 256

abbrev Decide :=
  ActionSpace → UiGoal → List HistoryEntry → Except PolicyError PolicyOutcome

/-- Why the local policy abstained. -/
structure AbstainReport where
  reason : String := ""
  ranked : List RankedAction := []

def AbstainReport.of : PolicyOutcome → AbstainReport
  | .abstain reason operationRanked targetRanked =>
    ⟨reason, if targetRanked.isEmpty then operationRanked else targetRanked⟩
  | .choice _ => {}

/-- Two contenders share kind and label. -/
def ambiguousContenders : List RankedAction → Bool
  | [] => false
  | a :: ranked =>
    (ranked.any fun b => a.kind = b.kind && a.label = b.label) || ambiguousContenders ranked

/-- A local policy with a fallback for its abstains. -/
structure EscalatingPolicy where
  decideLocal : Decide
  fallback : Option (AbstainReport → Decide)
  calls : Nat := 0

def EscalatingPolicy.decide (policy : EscalatingPolicy) (space : ActionSpace) (goal : UiGoal)
    (history : List HistoryEntry) : Except PolicyError PolicyOutcome × EscalatingPolicy :=
  match policy.decideLocal space goal history with
  | .error e => (.error e, policy)
  | .ok (.choice d) => (.ok (.choice d), policy)
  | .ok (.abstain reason operationRanked targetRanked) =>
    let first := PolicyOutcome.abstain reason operationRanked targetRanked
    match policy.fallback with
    | none => (.ok first, policy)
    | some fallback =>
      let report := AbstainReport.of first
      if ambiguousContenders report.ranked then (.ok first, policy)
      else (fallback report space goal history, { policy with calls := policy.calls + 1 })

/-- A row of the menu. -/
def OfferedAction.toJson (a : OfferedAction) : Json :=
  .object ([("id", .string a.id), ("name", .string a.label), ("op", .string a.kind.asStr)] ++
    (a.role.map fun role => ("role", Json.string role)).toList ++
    (a.state.map fun state => ("state", state.toJson)).toList)

def RankedAction.toJson (r : RankedAction) : Json :=
  .object [("confidence_millis", .nat r.confidenceMillis), ("id", .string r.id),
    ("name", .string r.label), ("op", .string r.kind.asStr)]

namespace CommandEscalation

def bad (m : String) : String := s!"{ESCALATION_PROTOCOL} {m}"

/-- The `choose` request for an abstain. -/
def chooseRequest (space : ActionSpace) (goal : UiGoal) (history : List HistoryEntry)
    (abstain : AbstainReport) : Json :=
  .object [("abstain", .object [("ranked", .array (abstain.ranked.map RankedAction.toJson)),
      ("reason", .string abstain.reason)]),
    ("actions", .array (space.offered.map OfferedAction.toJson)),
    ("clause", .string goal.text), ("goal", .string goal.text),
    ("history", .array (history.map HistoryEntry.toJson)), ("kind", .string "choose"),
    ("v", .nat 1)]

section Reply

variable (parseJson : String → Except String Json)

/-- Check a `choose` reply against the offered space. -/
def parseChooseReply (space : ActionSpace) (reply : String) : Except String PolicyOutcome := do
  let value ← (parseJson reply).mapError bad
  let obj ← okOr (bad "reply not an object") value.asObject
  require (obj.length = 1) (bad "expected exactly one of `choice` or `abstain`")
  match obj.lookup "abstain" with
  | some reason =>
    let reason ← okOr (bad "abstain must be a string") reason.asStr
    return .abstain s!"escalated abstain: {reason}" [] []
  | none =>
    let choice ← okOr (bad "expected `choice` object") ((obj.lookup "choice").bind Json.asObject)
    require (choice.all fun row => row.1 = "id" || row.1 = "op")
      (bad "choice may only carry `id` and `op`")
    let id ← okOr (bad "choice.id missing") ((choice.lookup "id").bind Json.asStr)
    let op ← okOr (bad "choice.op missing") ((choice.lookup "op").bind Json.asStr)
    let offered ← okOr (bad s!"off-menu id `{id}`") (space.getStr id)
    require (offered.kind.asStr = op) (bad s!"id `{id}` is {offered.kind.asStr} not {op}")
    if offered.dangerous then return .abstain "needs_confirmation" [] []
    else return .choice ⟨offered.id, offered.kind, offered.label, 0, [], []⟩

/-- Check a `text` reply. -/
def parseTextReply (reply : String) (contextFingerprint : UInt64) :
    Except TextError TextResolution := do
  let value ← (parseJson reply).mapError fun e => .invalid (bad e)
  let obj ← okOr (.invalid (bad "reply not an object")) value.asObject
  require (obj.length = 1) (.invalid (bad "expected exactly one of `text` or `abstain`"))
  match obj.lookup "abstain" with
  | some reason =>
    require reason.asStr.isSome (.invalid (bad "abstain must be a string"))
    throw .missing
  | none =>
    let text ← okOr (.invalid (bad "expected `text` string"))
      ((obj.lookup "text").bind Json.asStr)
    require (text.utf8ByteSize ≤ TEXT_CAP) (.invalid (bad "text exceeds 256 chars"))
    require (text.toList.all fun c => c ≠ '\n' && c ≠ '\r')
      (.invalid (bad "text must be a single line"))
    return ⟨text, contextFingerprint⟩

variable (call : Json → Except String String)

/-- Ask the endpoint for a field's payload. -/
def resolveText (goal : UiGoal) (fieldId fieldLabel : String) (contextFingerprint : UInt64) :
    Except TextError TextResolution := do
  let req := Json.object [("clause", .string goal.text),
    ("field", .object [("id", .string fieldId), ("name", .string fieldLabel)]),
    ("goal", .string goal.text), ("kind", .string "text"), ("v", .nat 1)]
  let reply ← (call req).mapError .invalid
  parseTextReply parseJson reply contextFingerprint

/-- One round-trip of the command; `call` is the endpoint's reply to a request. -/
def choose (space : ActionSpace) (goal : UiGoal) (history : List HistoryEntry)
    (abstain : AbstainReport) : Except String PolicyOutcome := do
  let reply ← call (chooseRequest space goal history abstain)
  parseChooseReply parseJson space reply

/-- The command as a fallback: a protocol violation is an abstain with the protocol's prefix. -/
def decideEscalating (abstain : AbstainReport) : Decide := fun space goal history =>
  if goal.isEmpty then .error .emptyGoal
  else match choose parseJson call space goal history abstain with
    | .ok outcome => .ok outcome
    | .error protocol => .ok (.abstain protocol [] [])

end Reply

end CommandEscalation

end GpuiAgent
