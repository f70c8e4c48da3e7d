import GpuiAgent.Recipe.Gates
import GpuiAgent.Recipe.Run

namespace GpuiAgent

open Framework

/-- The spellings of a binding that make the host quit. -/
def QuitSpelling (binding : String) : Prop :=
  let n := toAsciiLowercase (trim binding)
  n = "quit" ∨ n = "app.quit" ∨ ∃ stem, n = stem ++ ".quit"

theorem isQuitBinding_iff {binding : String} :
    isQuitBinding binding = true ↔ QuitSpelling binding := by
  unfold isQuitBinding QuitSpelling
  simp [endsWith_iff, or_assoc]

section Exit

variable {registry : Registry}

/-- The ops that end the app. -/
def ExitOp (registry : Registry) : Op → Prop
  | .shutdown => True
  | .keybinding binding .. => QuitSpelling binding
  | .invoke name _ => ∃ schema, registry.get name = some schema ∧ .exit ∈ schema.effects
  | _ => False

/-- A read of the events where the name stands for an operation that exits. -/
def EventsExit (registry : Registry) : Op → Prop
  | .events .. => ∃ schema, registry.get "events" = some schema ∧ .exit ∈ schema.effects
  | _ => False

/-- No schema lists an exit but that of `shutdown` and those to invoke. -/
def OnlyExits (registry : Registry) : Prop :=
  ∀ name schema, registry.get name = some schema → .exit ∈ schema.effects →
    name = "shutdown" ∨ schema.kind = .invoke

theorem exit_notMem_lookup {name : String} (loaded : Loaded registry)
    (safe : ((protocolOps.find? fun schema => schema.name = name).map fun schema =>
      schema.effects.contains .exit) = some false) : .exit ∉ (lookup name registry).2.1 := by
  obtain ⟨schema, hschema, hsafe⟩ := Option.map_eq_some_iff.mp safe
  rw [lookup, loaded.get_protocol hschema]
  simpa using hsafe

/-- What lists an exit among its effects. -/
theorem exit_annotate (loaded : Loaded registry) {op : Op} (registered : ∀ name args,
    op = .invoke name args → ∃ schema, registry.get name = some schema ∧ schema.kind = .invoke) :
    .exit ∈ (annotate op registry).2.1 ↔ ExitOp registry op ∨ EventsExit registry op := by
  cases op with
  | shutdown =>
    have hget : registry.get "shutdown" = some (protocol "shutdown" [.exit] false []) :=
      loaded.get_protocol (by decide +kernel)
    refine iff_of_true ?_ (.inl trivial)
    rw [annotate, lookup, hget]
    exact List.mem_singleton_self _
  | keybinding binding chord scope confirm activate =>
    have hsafe : .exit ∉ (lookup "keybinding" registry).2.1 :=
      exit_notMem_lookup loaded (by decide +kernel)
    unfold annotate ExitOp EventsExit
    dsimp only
    rw [← isQuitBinding_iff]
    split_ifs with hquit
    · simp [hquit]
    · simp [hquit, hsafe]
  | invoke name args =>
    obtain ⟨schema, hschema, hkind⟩ := registered name args rfl
    unfold annotate ExitOp EventsExit
    simp [hschema, hkind]
  | events since limit =>
    unfold annotate ExitOp EventsExit lookup
    cases hget : registry.get "events" with
    | none => simp
    | some schema => simp
  | _ => exact iff_of_false (exit_notMem_lookup loaded (by decide +kernel)) (not_or.mpr ⟨id, id⟩)

end Exit

/-- What the exit gate promises of a compiled plan, and of the run of any plan without a `yes`. -/
structure ExitGated (registry : Registry) (plan : Plan) : Prop where
  exits : (∃ planned ∈ plan.steps, ExitOp registry planned.op) → plan.requiresYes = true
  only : OnlyExits registry → plan.requiresYes = true →
    ∃ planned ∈ plan.steps, ExitOp registry planned.op
  silent : ∀ (other : Plan) host client screenshots, other.requiresYes = true →
    (runPlanWithScreenshots host client other false screenshots).calls = []

/-- Reads of the events are taken for an operation that exits, in a recipe where nothing does. -/
structure MisreadsEvents (registry : Registry) (recipe : Recipe) (set : Params) : Prop where
  only : OnlyExits registry
  events : ∃ step ∈ recipe.steps, EventsExit registry step.op
  none : ∀ step ∈ recipe.steps, ¬ ExitOp registry (step.fill set).op

/-- Without a `yes` a plan that needs one makes no call. -/
theorem calls_of_requiresYes (plan : Plan) (host : Nat → List (List Attempt)) (client : AgentClient)
    (screenshots : Option ScreenshotCapture) (h : plan.requiresYes = true) :
    (runPlanWithScreenshots host client plan false screenshots).calls = [] := by
  unfold runPlanWithScreenshots
  rw [h]
  rfl

section Compile

variable {digest : Json → UInt64} {recipe : Recipe} {set : Params} {registry : Registry}
  {plan : Plan}

/-- A plan needs a `yes` where some op lists an exit. -/
theorem requiresYes_iff (loaded : Loaded registry)
    (compiled : compilePlan digest recipe set registry = .ok plan) :
    plan.requiresYes = true ↔
      ∃ planned ∈ plan.steps, ExitOp registry planned.op ∨ EventsExit registry planned.op := by
  have spec := compilePlan_compiled compiled
  obtain ⟨valid, -⟩ := compilePlan_eq_ok.mp compiled
  rw [spec.requiresYes]
  refine exists_congr fun planned => and_congr_right fun hplanned => ?_
  obtain ⟨i, bound, hi, rfl⟩ := (spec.planned planned).mp hplanned
  obtain ⟨step, hstep, rfl⟩ := List.mem_map.mp (List.mem_of_getElem? hi)
  exact exit_annotate loaded fun name args => registered_fill (valid.steps step hstep)

/-- Binding does not touch a read of the events. -/
theorem eventsExit_fill {step : RecipeStep} :
    EventsExit registry (step.fill set).op ↔ EventsExit registry step.op := by
  unfold RecipeStep.fill
  dsimp only
  cases step.op with
  | _ => exact Iff.rfl

end Compile

/-- Plans are gated on their exits unless reads of the events are taken for one. -/
theorem exit_gated_iff (digest : Json → UInt64) (recipe : Recipe) (set : Params)
    (registry : Registry) (plan : Plan) (loaded : Loaded registry)
    (compiled : compilePlan digest recipe set registry = .ok plan) :
    ExitGated registry plan ↔ ¬ MisreadsEvents registry recipe set := by
  have hyes := requiresYes_iff loaded compiled
  have hnone := forall_planned_op compiled fun op => ¬ ExitOp registry op
  have hevents := forall_planned_op compiled fun op => ¬ EventsExit registry op
  constructor
  · intro gated misreads
    have hplanned : ∃ planned ∈ plan.steps, EventsExit registry planned.op := by
      by_contra hno
      push Not at hno
      obtain ⟨step, hstep, h⟩ := misreads.events
      exact hevents.mp hno step hstep (eventsExit_fill.mpr h)
    obtain ⟨planned, hmem, h⟩ := hplanned
    have hrequires := hyes.mpr ⟨planned, hmem, .inr h⟩
    obtain ⟨exit, hexit, h⟩ := gated.only misreads.only hrequires
    exact hnone.mpr misreads.none exit hexit h
  · intro h
    refine ⟨fun hexit => ?_, fun only hrequires => ?_, calls_of_requiresYes⟩
    · obtain ⟨planned, hmem, hexit⟩ := hexit
      exact hyes.mpr ⟨planned, hmem, .inl hexit⟩
    · by_contra hno
      push Not at hno
      obtain ⟨planned, hmem, hexit | hread⟩ := hyes.mp hrequires
      · exact hno planned hmem hexit
      · refine h ⟨only, ?_, hnone.mp hno⟩
        by_contra hsafe
        push Not at hsafe
        exact hevents.mpr (fun step hstep hfill => hsafe step hstep (eventsExit_fill.mp hfill))
          planned hmem hread

/-- The plan that fires a quit waits for a `yes`. -/
theorem exit_gated_quit : ExitGated protocolRegistry (firePlan "app.quit" [.exit] true) := by
  refine (exit_gated_iff (fun _ => 0) fireRecipe (fireParams "app.quit") protocolRegistry
    (firePlan "app.quit" [.exit] true) .protocol (by decide +kernel)).mpr fun misreads => ?_
  obtain ⟨step, hstep, h⟩ := misreads.events
  rw [fireRecipe, List.mem_singleton] at hstep
  rw [hstep] at h
  exact h

/-- An operation of an app that exits and has the name of a protocol op without a schema. -/
def exitEvents : OpSchema :=
  { name := "events", kind := .invoke, effects := [.exit], idempotent := false, required := [],
    args := [] }

def exitSchemas : Registry := Registry.new.insertValid exitEvents (by decide +kernel)

def exitRegistry : Registry := protocolRegistry.insertValid exitEvents (by decide +kernel)

theorem loaded_exitRegistry : Loaded exitRegistry := by
  refine @Loaded.merge _ exitSchemas _ .protocol ?_
  have hschemas : exitSchemas.schemas.toList.map Prod.snd = [exitEvents] := by decide +kernel
  have hnew : (protocolRegistry.get exitEvents.name).isSome = false := by decide +kernel
  rw [Registry.merge, hschemas]
  unfold Registry.mergeSchemas
  rw [hnew, Registry.insert_of_valid (by decide +kernel)]
  rfl

theorem onlyExits_exitRegistry : OnlyExits exitRegistry := by
  have hprotocol : ∀ schema ∈ protocolOps, .exit ∈ schema.effects → schema.name = "shutdown" := by
    decide +kernel
  intro name schema hget hexit
  unfold exitRegistry at hget
  rw [Registry.get_insertValid, protocolRegistry_get] at hget
  split_ifs at hget with hname
  · obtain rfl := Option.some.inj hget
    exact .inr rfl
  · have hschema := hprotocol schema (List.mem_of_find?_eq_some hget) hexit
    have hfound := List.find?_some hget
    rw [decide_eq_true_iff, hschema] at hfound
    exact .inl hfound.symm

def readEvents : Recipe where
  name := "read"
  steps := [{ id := "read", op := .events none none }]

def readEventsPlan : Plan where
  name := "read"
  app := none
  steps := [{
    id := "read"
    op := .events none none
    needs := []
    screenshot := false
    effects := [.exit]
    schema := some "events"
    idempotent := false }]
  waves := [["read"]]
  effects := [.exit]
  requiresYes := true
  fingerprint := "0000000000000000"

/-- A plan that only reads the events waits for a `yes`, with the effects of an operation of the
app. -/
theorem events_misread :
    Loaded exitRegistry ∧ OnlyExits exitRegistry ∧
      compilePlan (fun _ => 0) readEvents ∅ exitRegistry = .ok readEventsPlan ∧
      ¬ ExitGated exitRegistry readEventsPlan := by
  refine ⟨loaded_exitRegistry, onlyExits_exitRegistry, by decide +kernel, fun gated => ?_⟩
  obtain ⟨planned, hmem, hexit⟩ := gated.only onlyExits_exitRegistry rfl
  rw [readEventsPlan, List.mem_singleton] at hmem
  rw [hmem] at hexit
  exact hexit

end GpuiAgent
