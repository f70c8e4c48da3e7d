import GpuiAgent.Framework.Kahn
import GpuiAgent.Recipe.Recipe

namespace GpuiAgent

open Framework

section Payload

def DeliveryMode.asStr : DeliveryMode → String
  | semantic => "semantic"
  | virtual => "virtual"

/-- An object of the fields that are given. -/
def Json.ofFields (fields : List (String × Option Json)) : Json :=
  .object (fields.filterMap fun field => field.2.map fun v => (field.1, v))

def DeliveryMode.toJson? (delivery : DeliveryMode) : Option Json :=
  if delivery = .semantic then none else some (.string delivery.asStr)

def fingerprintJson (fingerprint : Option UInt64) : Option Json :=
  fingerprint.map fun n => .nat n.toNat

/-- `true` or nothing. -/
def flagJson (b : Bool) : Option Json := if b then some (.bool true) else none

/-- The fields of a spec among those of the op it belongs to. -/
def AssertSpec.toJson (spec : AssertSpec) (op : String) (timeoutMs : Option Nat) : Json :=
  .ofFields [("checked", spec.checked.map .bool), ("exists", spec.exists'.map .bool),
    ("in_viewport", spec.inViewport.map .bool), ("name", spec.name.map .string),
    ("op", some (.string op)), ("role", spec.role.map .string),
    ("target", some (.string spec.target)),
    ("timeout_ms", timeoutMs.map .nat), ("value", spec.value.map .string),
    ("visible", spec.visible.map .bool)]

/-- `serde_json::to_value` of an op, its keys in order. -/
def Op.toJson : Op → Json
  | .hello => .ofFields [("op", some (.string "hello"))]
  | .snapshot since format fingerprints =>
    .ofFields [("fingerprints", fingerprints.map .bool),
      ("format", format.map fun f => .string (if f = .json then "json" else "compact")),
      ("op", some (.string "snapshot")), ("since", since.map .nat)]
  | .revision => .ofFields [("op", some (.string "revision"))]
  | .events since limit =>
    .ofFields [("limit", limit.map .nat), ("op", some (.string "events")),
      ("since", since.map .nat)]
  | .click target delivery fingerprint =>
    .ofFields [("delivery", delivery.toJson?), ("expect_fingerprint", fingerprintJson fingerprint),
      ("op", some (.string "click")), ("target", some (.string target))]
  | .type target text delivery fingerprint =>
    .ofFields [("delivery", delivery.toJson?), ("expect_fingerprint", fingerprintJson fingerprint),
      ("op", some (.string "type")), ("target", some (.string target)),
      ("text", some (.string text))]
  | .setValue target value fingerprint =>
    .ofFields [("expect_fingerprint", fingerprintJson fingerprint),
      ("op", some (.string "set_value")), ("target", some (.string target)),
      ("value", some (.string value))]
  | .key target token delivery fingerprint =>
    .ofFields [("delivery", delivery.toJson?), ("expect_fingerprint", fingerprintJson fingerprint),
      ("key", some (.string token)), ("op", some (.string "key")),
      ("target", some (.string target))]
  | .keybinding binding chord scope confirm activate =>
    .ofFields [("activate", flagJson activate), ("binding", some (.string binding)),
      ("chord", chord.map .string), ("confirm", flagJson confirm),
      ("op", some (.string "keybinding")), ("scope", some (.string scope.asStr))]
  | .keybindings => .ofFields [("op", some (.string "keybindings"))]
  | .assert spec => spec.toJson "assert" none
  | .invoke name args =>
    .ofFields [("args", some args), ("name", some (.string name)), ("op", some (.string "invoke"))]
  | .wait timeoutMs =>
    .ofFields [("op", some (.string "wait")), ("timeout_ms", some (timeoutMs.elim .null .nat))]
  | .waitUntil timeoutMs spec => spec.toJson "wait_until" (some timeoutMs)
  | .shutdown => .ofFields [("op", some (.string "shutdown"))]
  | .screenshot path mode target maxHeightPx =>
    .ofFields [("max_height_px", maxHeightPx.map .nat),
      ("mode", if mode = .viewport then none else some (.string "scrolled")),
      ("op", some (.string "screenshot")), ("path", path.map .string),
      ("target", target.map .string)]

end Payload

structure PlannedStep where
  id : String
  op : Op
  needs : List String
  screenshot : Bool
  effects : List Effect
  schema : Option String
  idempotent : Bool
  deriving DecidableEq

structure Plan where
  name : String
  app : Option String
  steps : List PlannedStep
  waves : List (List String)
  effects : List Effect
  requiresYes : Bool
  fingerprint : String
  deriving DecidableEq

/-- The name of a schema, its effects and whether it is idempotent. -/
abbrev Annotation := Option String × List Effect × Bool

/-- An unknown name counts as a write. -/
def lookup (name : String) (registry : Registry) : Annotation :=
  match registry.get name with
  | some schema => (some schema.name, schema.effects, schema.idempotent)
  | none => (none, [.write], false)

def annotate (op : Op) (registry : Registry) : Annotation :=
  match op with
  | .hello => lookup "hello" registry
  | .wait _ => lookup "wait" registry
  | .waitUntil .. => lookup "wait_until" registry
  | .snapshot .. => lookup "snapshot" registry
  | .revision => lookup "revision" registry
  | .click .. => lookup "click" registry
  | .type .. => lookup "type" registry
  | .setValue .. => lookup "set_value" registry
  | .key .. => lookup "key" registry
  | .keybinding binding .. =>
    let (name, effects, idempotent) := lookup "keybinding" registry
    if isQuitBinding binding then (name, [.exit], idempotent) else (name, effects, idempotent)
  | .keybindings => lookup "keybindings" registry
  | .events .. => lookup "events" registry
  | .assert _ => lookup "assert" registry
  | .screenshot .. => lookup "screenshot" registry
  | .shutdown => lookup "shutdown" registry
  | .invoke name _ => match registry.get name with
    | some schema =>
      if schema.kind = .invoke then (some schema.name, schema.effects, schema.idempotent)
      else lookup "invoke" registry
    | none => lookup "invoke" registry

def stepId (steps : List RecipeStep) (i : Nat) : String := (steps[i]?.map RecipeStep.id).getD ""

/-- The place of each id among the steps. -/
def stepIndex (steps : List RecipeStep) : Std.TreeMap String Nat :=
  Std.TreeMap.ofList (steps.zipIdx.map fun entry => (entry.1.id, entry.2))

/-- An edge from each need of a step to the step. -/
def needEdges (steps : List RecipeStep) : Except String (Edges Nat) := do
  let index := stepIndex steps
  let edges ← steps.zipIdx.mapM fun entry => entry.1.needs.mapM fun need =>
    match index[need]? with
    | some j => .ok (j, entry.2)
    | none => .error s!"unknown need `{need}`"
  return edges.flatten

def CYCLE : String := "recipe has a dependency cycle"

/-- The panic of a counter that goes below zero. -/
def OVERFLOW : String := "attempt to subtract with overflow"

def sortByKey (steps : List RecipeStep) (wave : List Nat) : List Nat :=
  wave.insertionSort fun i j => stepId steps i ≤ stepId steps j

/-- The order of the steps, by index, and the waves, by id. -/
def schedule (steps : List RecipeStep) : Except String (List Nat × List (List String)) := do
  if steps.all fun step => step.needs.isEmpty then
    return (List.range steps.length, steps.map fun step => [step.id])
  let edges ← needEdges steps
  let (adj, indegree) := edges.foldl Kahn.link (fun _ => [], fun _ => 0)
  let ready := (List.range steps.length).filter fun i => indegree i = 0
  let start : Kahn Nat := { ordered := [], remaining := steps.length, indegree, next := ready }
  match Kahn.run adj (sortByKey steps) (steps.length + 1) start [] with
  | none => throw OVERFLOW
  | some (done, waves) =>
    if done.remaining ≠ 0 then throw CYCLE
    return (done.ordered, waves.map fun wave => wave.map (stepId steps))

/-- `{:016x}`. -/
def hex16 (n : UInt64) : String :=
  let digits := Nat.toDigits 16 n.toNat
  .ofList (List.replicate (16 - digits.length) '0' ++ digits)

/-- What the fingerprint covers. -/
def fingerprintPayload (name : String) (steps : List PlannedStep) : Json :=
  .object [("name", .string name), ("steps", .array (steps.map fun step =>
    .object [("id", .string step.id), ("needs", .strings step.needs), ("op", step.op.toJson)]))]

section Compile

-- the hash of a JSON text, which the standard library does not fix
variable (digest : Json → UInt64)

def fingerprintPlan (name : String) (steps : List PlannedStep) : String :=
  hex16 (digest (fingerprintPayload name steps))

/-- The planned form of step `i`. Steps without needs are a sequence. -/
def planStep (registry : Registry) (steps : List RecipeStep) (i : Nat) (step : RecipeStep) :
    PlannedStep :=
  let (schema, effects, idempotent) := annotate step.op registry
  let implicit := steps.all fun step => step.needs.isEmpty
  { id := step.id
    op := step.op
    needs := if implicit then (if i = 0 then [] else [stepId steps (i - 1)]) else step.needs
    screenshot := step.screenshot
    effects, schema, idempotent }

/-- The plan of a recipe whose steps have been put in order. -/
def assemblePlan (registry : Registry) (bound : Recipe) (ordered : List Nat)
    (waves : List (List String)) : Plan :=
  let planned := ordered.filterMap fun i =>
    bound.steps[i]?.map (planStep registry bound.steps i)
  let seen := planned.flatMap PlannedStep.effects
  { name := bound.name
    app := bound.app
    steps := planned
    waves
    -- the effects as an ordered set
    effects := [Effect.read, .write, .exit].filter fun effect => seen.contains effect
    requiresYes := seen.contains .exit
    fingerprint := fingerprintPlan digest bound.name planned }

/-- The recipe with its parameters bound, if it has any. -/
def boundRecipe (recipe : Recipe) (set : Params) : Except String Recipe :=
  if recipe.params.isEmpty then .ok recipe else applyParams recipe set

def compilePlan (recipe : Recipe) (set : Params) (registry : Registry) : Except String Plan := do
  validateRecipe recipe registry
  let bound ← boundRecipe recipe set
  let (ordered, waves) ← schedule bound.steps
  return assemblePlan digest registry bound ordered waves

structure OrderCheck where
  orderDependent : Bool
  forwardWaves : List (List String)
  reverseWaves : List (List String)

def orderCheck (recipe : Recipe) (set : Params) (registry : Registry) :
    Except String OrderCheck := do
  let forward ← compilePlan digest recipe set registry
  let reverse ← compilePlan digest { recipe with steps := recipe.steps.reverse } set registry
  return {
    orderDependent := forward.waves.map List.toFinset ≠ reverse.waves.map List.toFinset
    forwardWaves := forward.waves
    reverseWaves := reverse.waves }

end Compile

end GpuiAgent
