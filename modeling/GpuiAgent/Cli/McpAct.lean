import GpuiAgent.Cli.Conversation
import GpuiAgent.Policy.InstinctPolicy
import GpuiAgent.Policy.Runner
import GpuiAgent.Policy.Text
import GpuiAgent.Recipe.InstinctResolve
import GpuiAgent.Recipe.Resolve

namespace GpuiAgent

open Framework

namespace Tool

/-- A call whose failure does not end the tool. -/
def attempt (op : Op) : Tool (Except String Response) :=
  ExceptT.mk (.expectOk op fun result => .done (.ok result))

theorem ran_attempt {σ : Type*} {answer : σ → Op → Except String Response × σ} (s : σ) (op : Op) :
    (attempt op).ran answer s =
      ⟨.ok (accepted (answer s op).1), (answer s op).2, [⟨s, op, (answer s op).1⟩]⟩ := rfl

theorem unbatched_attempt (op : Op) : (attempt op).Unbatched := fun _ => trivial

end Tool

/-- Write an entry of an object, in key order. -/
def Json.setEntry (key : String) (value : Json) : List (String × Json) → List (String × Json)
  | [] => [(key, value)]
  | (k, v) :: entries =>
    if key < k then (key, value) :: (k, v) :: entries
    else if key = k then (key, value) :: entries
    else (k, v) :: setEntry key value entries

/-- A call that asks and changes nothing. -/
def Op.reads : Op → Bool
  | .snapshot .. | .keybindings => true
  | _ => false

def Json.ofNat? (n : Option Nat) : Json := (n.map Json.nat).getD .null

def Json.ofString? (s : Option String) : Json := (s.map Json.string).getD .null

namespace Mcp

/-- What the tools of the policy have besides the client and their arguments. `catalogOf` reads
schema files, `decodeKeybindings` is the derived JSON reader. -/
structure InstinctTools where
  lex : Lexicon
  inst : Instinct
  schemaPaths : List String
  catalogOf : List String → Except String Catalog
  decodeKeybindings : Json → Except String (List KeybindingInfo)

structure Observed where
  rev : Option Nat
  keybindings : List KeybindingInfo
  space : ActionSpace

/-- The end of one pass of `act`: it is over, or the host refused its op as stale. -/
inductive ActStep where
  | done (value : Json)
  | stale

def recipeSchemaPaths (cli : List String) (args : Json) : List String :=
  cli ++ match args.get "schema" with
    | some (.array values) => values.filterMap Json.asStr
    | some (.string s) => [s]
    | _ => []

/-- Invoke schemas become offers, dangerous ones where they end the app. -/
def offeredInvokes (catalog : Catalog) : List OfferedInvoke :=
  ((catalog.registry.schemas.toList.map Prod.snd).filter fun s => s.kind = .invoke).map fun s =>
    { name := s.name
      description := catalog.description s.name ++ " " ++ " ".intercalate (catalog.keywords s.name)
      dangerous := s.effects.contains .exit }

section Tools

variable (tools : InstinctTools) (args : Json)

/-- Without schema files there are no invokes to offer. -/
def invokesFor : Except String (List OfferedInvoke) :=
  let paths := recipeSchemaPaths tools.schemaPaths args
  if paths.isEmpty then .ok [] else (tools.catalogOf paths).map offeredInvokes

def invokeArgsFor (name clause : String) : Except String Json := do
  let catalog ← tools.catalogOf (recipeSchemaPaths tools.schemaPaths args)
  let schema ← okOr s!"invoke schema `{name}` not in registry" (catalog.registry.get name)
  Resolve.invokeArgs schema clause

/-- `KeybindingInfo::catalog_from`. -/
def keybindingsFrom (result : Option Json) : Except String (List KeybindingInfo) :=
  match result.bind fun v => v.get "keybindings" with
  | none | some .null => .ok []
  | some v => (tools.decodeKeybindings v).mapError fun err => s!"bad keybindings response: {err}"

/-- What is seen in the replies to a snapshot and a listing. -/
def observed (snap listing : Response) : Except String Observed := do
  let tree ← okOr "host returned no ui tree" snap.tree
  let keybindings ← keybindingsFrom tools listing.result
  let invokes ← invokesFor tools args
  return ⟨snap.rev.or tree.rev, keybindings, .fromTree tools.lex tree keybindings invokes⟩

/-- A snapshot without a tree ends it before the listing. -/
def observe : Tool Observed := do
  let snap ← Tool.expectOk (.snapshot none none none)
  let _ ← Tool.ofExcept (okOr "host returned no ui tree" snap.tree)
  let listing ← Tool.expectOk .keybindings
  Tool.ofExcept (observed tools args snap listing)

def decide (obs : Observed) (clause : String) : Except String PolicyOutcome :=
  (InstinctPolicy.decide tools.lex tools.inst obs.space (.new clause) []).mapError
    PolicyError.display

def candidatesJson (obs : Observed) (ranked : List RankedAction) (k : Nat) : Json :=
  .array ((topCandidates obs.space ranked k).map fun c => .object
    [("confidence", .nat c.confidenceMillis), ("id", .string c.id), ("name", .string c.name),
      ("op", .string c.op), ("role", .string c.role)])

/-- The rows behind an abstention. -/
def abstainRows (operationRanked targetRanked : List RankedAction) : List RankedAction :=
  if targetRanked.isEmpty then operationRanked else targetRanked

def rowLimit : Nat := min (((args.get "k").bind Json.asU64).getD 5) 64

/-- `locate`. -/
def locate : Tool Json := do
  let query ← Tool.ofExcept (string args "query")
  let k := rowLimit args
  let obs ← observe tools args
  let outcome ← Tool.ofExcept (decide tools obs query)
  match outcome with
  | .choice d =>
    let action ← Tool.ofExcept (okOr "chosen action left the space" (obs.space.get d.actionId))
    return .object [("answer", .string "choice"),
      ("candidates", candidatesJson obs d.targetRanked k),
      ("chosen", .object [("confidence", .nat d.confidenceMillis), ("id", .string d.actionId),
        ("name", .string d.targetLabel), ("op", .string d.kind.asStr),
        ("role", .ofString? action.role)]),
      ("rev", .ofNat? obs.rev)]
  | .abstain reason operationRanked targetRanked =>
    return .object [("answer", .string "abstain"),
      ("candidates", candidatesJson obs (abstainRows operationRanked targetRanked) k),
      ("reason", .string reason), ("rev", .ofNat? obs.rev)]

def abstained (reason : String) (candidates : Json) (rev : Option Nat) : Json :=
  .object [("abstain", .object [("candidates", candidates), ("reason", .string reason)]),
    ("rev", .ofNat? rev)]

def finished (rev : Option Nat) : Json :=
  .object [("done", .object [("id", .string "DONE"), ("op", .string "done")]), ("rev", .ofNat? rev)]

def textReason : TextError → String
  | .missing => "text_missing"
  | .ambiguous => "text_ambiguous"
  | .invalid msg => s!"text_invalid:{msg}"
  | .abstain msg => s!"text_abstain:{msg}"

/-- The payload of a `TYPE` or `SET_VALUE`, from the clause alone. -/
def textPayload (obs : Observed) (clause : String) (d : PolicyDecision) (action : OfferedAction) :
    Except TextError (Option String) :=
  if d.kind = .type ∨ d.kind = .setValue then
    (DeterministicTextResolver.resolve ⟨.new clause, action.label, action.role.getD "", [],
      UInt64.ofNat (obs.rev.getD 0)⟩).map fun res => some res.text
  else .ok none

/-- The answer once an op was accepted, with the host's diff where it gives one. -/
def receipt (obs : Observed) (d : PolicyDecision) (text : Option String)
    (post : Except String Response) : Json :=
  let done := Json.object ([("confidence", .nat d.confidenceMillis), ("id", .string d.actionId),
    ("op", .string d.kind.asStr)] ++ (text.map fun text => ("text", .string text)).toList)
  match post with
  | .ok post =>
    let effect := ((post.result.bind Json.asObject).getD []).foldl
      (fun out entry => Json.setEntry entry.1 entry.2 out)
      [("done", done), ("rev", .ofNat? post.rev)]
    .object effect
  | .error err => .object [("diff", .null), ("diff_error", .string err), ("done", done),
    ("rev", .ofNat? obs.rev)]

/-- The op that carries a decision out. -/
def actOp (clause : String) (delivery : DeliveryMode) (obs : Observed) (d : PolicyDecision)
    (action : OfferedAction) (text : Option String) : Except String Op :=
  (opForDecision d action text delivery clause obs.keybindings
    (fun (_ : Unit) name clause => (invokeArgsFor tools args name clause, ())) ()).1

/-- Send the op and see what it did. -/
def dispatch (clause : String) (delivery : DeliveryMode) (obs : Observed) (d : PolicyDecision)
    (action : OfferedAction) (text : Option String) : Tool ActStep := do
  let op ← Tool.ofExcept (actOp tools args clause delivery obs d action text)
  let result ← Tool.attempt op
  match result with
  | .error err => if isStaleDispatchError err then return .stale else Tool.ofExcept (.error err)
  | .ok _ =>
    let post ← Tool.attempt (.snapshot obs.rev none none)
    return .done (receipt obs d text post)

/-- What follows a decision. Controls and a missing payload dispatch nothing. -/
def carryOut (clause : String) (delivery : DeliveryMode) (k : Nat) (obs : Observed)
    (d : PolicyDecision) (action : OfferedAction) : Tool ActStep :=
  match d.kind with
  | .done => return .done (finished obs.rev)
  | .blocked | .wait =>
    return .done (abstained (toAsciiLowercase d.kind.asStr) (.array []) obs.rev)
  | _ => match textPayload obs clause d action with
    | .error err =>
      return .done (abstained (textReason err) (candidatesJson obs d.targetRanked k) obs.rev)
    | .ok text => dispatch tools args clause delivery obs d action text

def actAttempt (clause : String) : Tool ActStep := do
  let delivery ← Tool.ofExcept (parseDelivery args)
  let k := rowLimit args
  let obs ← observe tools args
  let outcome ← Tool.ofExcept (decide tools obs clause)
  match outcome with
  | .abstain reason operationRanked targetRanked =>
    return .done (abstained reason
      (candidatesJson obs (abstainRows operationRanked targetRanked) k) obs.rev)
  | .choice d =>
    let action ← Tool.ofExcept (okOr "chosen action left the space" (obs.space.get d.actionId))
    carryOut tools args clause delivery k obs d action

def MAX_STALE_RETRIES : Nat := 2

def givenUp : Json :=
  .object [("abstain", .object [("candidates", .array []), ("reason", .string
    "stale_target: target kept changing between decide and dispatch")])]

/-- One pass, and `retry` where it was stale. -/
def actElse (clause : String) (retry : Tool Json) : Tool Json := do
  let step ← actAttempt tools args clause
  match step with
  | .done value => return value
  | .stale => retry

/-- The passes of `act`, with this many retries left. -/
def actLoop (clause : String) : Nat → Tool Json
  | 0 => actElse tools args clause (pure givenUp)
  | retries + 1 => actElse tools args clause (actLoop clause retries)

/-- `act` carries out the first clause only. -/
def act : Tool Json := do
  let instruction ← Tool.ofExcept (string args "instruction")
  let clause ← Tool.ofExcept
    (okOr "instruction has no clause" (splitSequentialClauses instruction).head?)
  actLoop tools args clause MAX_STALE_RETRIES

end Tools

section Unbatched

open Tool

variable (tools : InstinctTools) (args : Json) (clause : String)

theorem unbatched_observe : (observe tools args).Unbatched :=
  (unbatched_expectOk _).bind fun _ => (unbatched_ofExcept _).bind fun _ =>
    (unbatched_expectOk _).bind fun _ => unbatched_ofExcept _

theorem unbatched_dispatch (delivery : DeliveryMode) (obs : Observed) (d : PolicyDecision)
    (action : OfferedAction) (text : Option String) :
    (dispatch tools args clause delivery obs d action text).Unbatched := by
  refine (unbatched_ofExcept _).bind fun op => (unbatched_attempt op).bind fun result => ?_
  cases result with
  | error err =>
    dsimp only
    split_ifs
    · exact unbatched_pure _
    · exact unbatched_ofExcept _
  | ok resp => exact (unbatched_attempt _).bind fun _ => unbatched_pure _

theorem unbatched_actAttempt : (actAttempt tools args clause).Unbatched := by
  refine (unbatched_ofExcept _).bind fun delivery => (unbatched_observe tools args).bind fun obs =>
    (unbatched_ofExcept _).bind fun outcome => ?_
  cases outcome with
  | abstain reason operationRanked targetRanked => exact unbatched_pure _
  | choice d =>
    refine (unbatched_ofExcept _).bind fun action => ?_
    unfold carryOut
    split
    · exact unbatched_pure _
    · exact unbatched_pure _
    · exact unbatched_pure _
    · split
      · exact unbatched_pure _
      · exact unbatched_dispatch tools args clause delivery obs d action _

theorem unbatched_actElse {retry : Tool Json} (hretry : retry.Unbatched) :
    (actElse tools args clause retry).Unbatched := by
  refine (unbatched_actAttempt tools args clause).bind fun step => ?_
  cases step with
  | done value => exact unbatched_pure _
  | stale => exact hretry

theorem unbatched_actLoop (retries : Nat) : (actLoop tools args clause retries).Unbatched := by
  induction retries with
  | zero => exact unbatched_actElse tools args clause (unbatched_pure _)
  | succ retries ih => exact unbatched_actElse tools args clause ih

theorem unbatched_act : (act tools args).Unbatched :=
  (unbatched_ofExcept _).bind fun _ => (unbatched_ofExcept _).bind fun clause =>
    unbatched_actLoop tools args clause MAX_STALE_RETRIES

end Unbatched

/-- The tools of the policy among the others. -/
def InstinctTools.toolbox (tools : InstinctTools) (others : Toolbox) : Toolbox :=
  { others with locate := fun args => locate tools args, act := fun args => act tools args }

end Mcp

end GpuiAgent
