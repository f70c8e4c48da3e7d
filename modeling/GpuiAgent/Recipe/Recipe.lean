import GpuiAgent.Framework.Result
import GpuiAgent.Host.Keybinding
import GpuiAgent.Recipe.Schema
import GpuiAgent.Recipe.Template
import Mathlib.Data.List.Sort
import Mathlib.Data.String.Basic

namespace GpuiAgent

open Framework

def RECIPE_FORMAT_VERSION : Nat := 1

def MAX_RECIPE_STEPS : Nat := 256

structure RecipeStep where
  id : String
  needs : List String := []
  screenshot : Bool := false
  op : Op
  deriving DecidableEq

/-- A named graph, or sequence, of protocol ops. -/
structure Recipe where
  v : Nat := RECIPE_FORMAT_VERSION
  name : String
  app : Option String := none
  params : List String := []
  steps : List RecipeStep

namespace Recipe

def usesExplicitNeeds (recipe : Recipe) : Bool := recipe.steps.any fun step => !step.needs.isEmpty

end Recipe

def RecipeStep.substitute (set : Params) (step : RecipeStep) : Except String RecipeStep := do
  return { step with op := ← substituteOp set step.op }

def applyParams (recipe : Recipe) (set : Params) : Except String Recipe := do
  match recipe.params.find? fun name => !set.contains name with
  | some name => throw s!"missing --set {name}=…"
  | none => return { recipe with steps := ← recipe.steps.mapM (RecipeStep.substitute set) }

/-- The ids of the steps, checked one by one; `ids` are those before. -/
def validateIds (ids : List String) : List RecipeStep → Except String Unit
  | [] => .ok ()
  | step :: steps => do
    if (trim step.id).isEmpty then throw "step id cannot be empty"
    if stringHasPlaceholder step.id then
      throw (s!"step id `{step.id}` cannot contain $params " ++
        "(graph identity is not substitutable)")
    if ids.contains step.id then throw s!"duplicate step id `{step.id}`"
    validateIds (step.id :: ids) steps

def validateNeed (ids : List String) (id need : String) : Except String Unit := do
  if stringHasPlaceholder need then
    throw (s!"step `{id}` needs `{need}` cannot contain $params " ++
      "(graph identity is not substitutable)")
  if !ids.contains need then throw s!"step `{id}` needs unknown `{need}`"
  if need = id then throw s!"step `{id}` cannot need itself"

/-- The first undeclared placeholder in the order of the names. -/
def validatePlaceholdersDeclared (op : Op) (params : List String) : Except String Unit :=
  let found := (collectPlaceholdersInOp op).insertionSort (· ≤ ·)
  match found.find? fun name => !params.contains name with
  | some name => .error s!"placeholder ${name} is not declared in recipe.params"
  | none => .ok ()

def validateOp (op : Op) (registry : Registry) : Except String Unit :=
  match op with
  | .keybinding binding _ _ confirm _ =>
    if isQuitBinding binding && !confirm then
      .error s!"dangerous keybinding `{binding}` requires confirm=true"
    else .ok ()
  | .invoke name _ => match registry.get name with
    | some schema =>
      if schema.kind = .invoke then .ok ()
      else .error s!"invoke `{name}` is registered but is not an invoke schema"
    | none => .error s!"unknown invoke `{name}` (not in schema registry; fail closed)"
  | _ => .ok ()

def validateStep (recipe : Recipe) (registry : Registry) (step : RecipeStep) :
    Except String Unit := do
  step.needs.forM (validateNeed (recipe.steps.map RecipeStep.id) step.id)
  validatePlaceholdersDeclared step.op recipe.params
  validateOp step.op registry

def validateRecipe (recipe : Recipe) (registry : Registry) : Except String Unit := do
  if recipe.v ≠ RECIPE_FORMAT_VERSION then
    throw s!"unsupported recipe version {recipe.v} (want {RECIPE_FORMAT_VERSION})"
  if (trim recipe.name).isEmpty then throw "recipe name cannot be empty"
  if recipe.steps.isEmpty then throw "recipe has no steps"
  if MAX_RECIPE_STEPS < recipe.steps.length then
    throw s!"recipe has {recipe.steps.length} steps (max {MAX_RECIPE_STEPS})"
  validateIds [] recipe.steps
  recipe.steps.forM (validateStep recipe registry)

/-- The gates on a literal op. -/
def Gated (registry : Registry) : Op → Prop
  | .keybinding binding _ _ confirm _ => isQuitBinding binding = true → confirm = true
  | .invoke name _ => ∃ schema, registry.get name = some schema ∧ schema.kind = .invoke
  | _ => True

/-- What a valid step has. -/
structure ValidStep (recipe : Recipe) (registry : Registry) (step : RecipeStep) : Prop where
  named : (trim step.id).isEmpty = false
  literal : stringHasPlaceholder step.id = false
  needs : ∀ need ∈ step.needs, stringHasPlaceholder need = false ∧
    (∃ other ∈ recipe.steps, other.id = need) ∧ need ≠ step.id
  declared : ∀ name ∈ collectPlaceholdersInOp step.op, name ∈ recipe.params
  gated : Gated registry step.op

/-- What a valid recipe has; nothing of it depends on the order of the steps. -/
structure ValidRecipe (recipe : Recipe) (registry : Registry) : Prop where
  version : recipe.v = RECIPE_FORMAT_VERSION
  named : (trim recipe.name).isEmpty = false
  nonempty : recipe.steps ≠ []
  bounded : recipe.steps.length ≤ MAX_RECIPE_STEPS
  unique : (recipe.steps.map RecipeStep.id).Nodup
  steps : ∀ step ∈ recipe.steps, ValidStep recipe registry step

section Validate

variable {recipe : Recipe} {registry : Registry}

theorem validateIds_cons (ids : List String) (step : RecipeStep) (steps : List RecipeStep) :
    validateIds ids (step :: steps) =
      if (trim step.id).isEmpty then .error "step id cannot be empty"
      else if stringHasPlaceholder step.id then
        .error (s!"step id `{step.id}` cannot contain $params " ++
          "(graph identity is not substitutable)")
      else if ids.contains step.id then .error s!"duplicate step id `{step.id}`"
      else validateIds (step.id :: ids) steps := by
  rw [validateIds]
  split_ifs <;> rfl

theorem validateIds_eq_ok (steps : List RecipeStep) : ∀ ids,
    validateIds ids steps = .ok () ↔
      (∀ step ∈ steps, (trim step.id).isEmpty = false ∧ stringHasPlaceholder step.id = false) ∧
      (steps.map RecipeStep.id).Nodup ∧ ∀ step ∈ steps, step.id ∉ ids := by
  induction steps with
  | nil => exact fun ids => by simp [validateIds]
  | cons step steps ih =>
    intro ids
    rw [validateIds_cons, throwIf_eq_ok, throwIf_eq_ok, throwIf_eq_ok, ih, List.map_cons,
      List.nodup_cons, List.forall_mem_cons, List.forall_mem_cons]
    simp only [Bool.not_eq_true, List.contains_iff_mem, List.mem_cons, not_or, List.mem_map,
      not_exists, not_and]
    constructor
    · rintro ⟨hnamed, hliteral, hnew, hrest, hnodup, hother⟩
      exact ⟨⟨⟨hnamed, hliteral⟩, hrest⟩, ⟨fun s hs => (hother s hs).1, hnodup⟩, hnew,
        fun s hs => (hother s hs).2⟩
    · rintro ⟨⟨⟨hnamed, hliteral⟩, hrest⟩, ⟨hdistinct, hnodup⟩, hnew, hother⟩
      exact ⟨hnamed, hliteral, hnew, hrest, hnodup, fun s hs => ⟨hdistinct s hs, hother s hs⟩⟩

theorem validateNeed_eq_ok {ids : List String} {id need : String} :
    validateNeed ids id need = .ok () ↔
      stringHasPlaceholder need = false ∧ need ∈ ids ∧ need ≠ id := by
  have hchecks : validateNeed ids id need =
      if stringHasPlaceholder need then
        .error (s!"step `{id}` needs `{need}` cannot contain $params " ++
          "(graph identity is not substitutable)")
      else if !ids.contains need then .error s!"step `{id}` needs unknown `{need}`"
      else if need = id then .error s!"step `{id}` cannot need itself" else .ok () := by
    unfold validateNeed
    split_ifs <;> rfl
  rw [hchecks, throwIf_eq_ok, throwIf_eq_ok, throwIf_eq_ok]
  simp

theorem validatePlaceholdersDeclared_eq_ok {op : Op} {params : List String} :
    validatePlaceholdersDeclared op params = .ok () ↔
      ∀ name ∈ collectPlaceholdersInOp op, name ∈ params := by
  unfold validatePlaceholdersDeclared
  dsimp only
  split
  next name hname =>
    have hmem := List.mem_of_find?_eq_some hname
    have hmissing := List.find?_some hname
    refine iff_of_false (fun h => by cases h) fun h => ?_
    have := h name ((List.perm_insertionSort _ _).mem_iff.mp hmem)
    simp [this] at hmissing
  next hnone =>
    refine iff_of_true rfl fun name hname => ?_
    have := List.find?_eq_none.mp hnone name ((List.perm_insertionSort _ _).mem_iff.mpr hname)
    simpa using this

theorem validateOp_eq_ok {op : Op} : validateOp op registry = .ok () ↔ Gated registry op := by
  cases op with
  | keybinding binding chord scope confirm activate =>
    unfold validateOp Gated
    rw [throwIf_eq_ok]
    cases confirm <;> simp
  | invoke name args =>
    unfold validateOp Gated
    cases hget : registry.get name with
    | none => simp [hget]
    | some schema => simp [hget]
  | _ => exact iff_of_true rfl trivial

theorem validateStep_eq_ok {step : RecipeStep} :
    validateStep recipe registry step = .ok () ↔
      (∀ need ∈ step.needs, stringHasPlaceholder need = false ∧
        need ∈ recipe.steps.map RecipeStep.id ∧ need ≠ step.id) ∧
      (∀ name ∈ collectPlaceholdersInOp step.op, name ∈ recipe.params) ∧
      Gated registry step.op := by
  unfold validateStep
  rw [andThen_eq_ok, andThen_eq_ok, forM_eq_ok, validatePlaceholdersDeclared_eq_ok,
    validateOp_eq_ok]
  simp only [validateNeed_eq_ok]

/-- The checks pass exactly on the valid recipes. -/
theorem validateRecipe_eq_ok :
    validateRecipe recipe registry = .ok () ↔ ValidRecipe recipe registry := by
  have hchecks : validateRecipe recipe registry =
      if recipe.v ≠ RECIPE_FORMAT_VERSION then
        .error s!"unsupported recipe version {recipe.v} (want {RECIPE_FORMAT_VERSION})"
      else if (trim recipe.name).isEmpty then .error "recipe name cannot be empty"
      else if recipe.steps.isEmpty then .error "recipe has no steps"
      else if MAX_RECIPE_STEPS < recipe.steps.length then
        .error s!"recipe has {recipe.steps.length} steps (max {MAX_RECIPE_STEPS})"
      else validateIds [] recipe.steps >>= fun _ =>
        recipe.steps.forM (validateStep recipe registry) := by
    unfold validateRecipe
    split_ifs <;> rfl
  rw [hchecks, throwIf_eq_ok, throwIf_eq_ok, throwIf_eq_ok, throwIf_eq_ok, andThen_eq_ok,
    forM_eq_ok, validateIds_eq_ok, not_not, not_lt, Bool.not_eq_true, List.isEmpty_iff]
  simp only [validateStep_eq_ok]
  constructor
  · rintro ⟨hversion, hnamed, hnonempty, hbounded, ⟨hids, hunique, -⟩, hsteps⟩
    refine ⟨hversion, hnamed, hnonempty, hbounded, hunique, fun step hstep => ?_⟩
    obtain ⟨hneeds, hdeclared, hgated⟩ := hsteps step hstep
    refine ⟨(hids step hstep).1, (hids step hstep).2, fun need hneed => ?_, hdeclared, hgated⟩
    obtain ⟨hliteral, hknown, hother⟩ := hneeds need hneed
    exact ⟨hliteral, List.mem_map.mp hknown, hother⟩
  · intro h
    refine ⟨h.version, h.named, h.nonempty, h.bounded, ⟨fun step hstep => ?_, h.unique,
      fun _ _ => List.not_mem_nil⟩, fun step hstep => ?_⟩
    · exact ⟨(h.steps step hstep).named, (h.steps step hstep).literal⟩
    · refine ⟨fun need hneed => ?_, (h.steps step hstep).declared, (h.steps step hstep).gated⟩
      obtain ⟨hliteral, hknown, hother⟩ := (h.steps step hstep).needs need hneed
      exact ⟨hliteral, List.mem_map.mpr hknown, hother⟩

end Validate

/-- The step with the values in its op; `id` and `needs` are not substituted. -/
def RecipeStep.fill (set : Params) (step : RecipeStep) : RecipeStep :=
  { step with op := step.op.mapText (fillString set.value) }

section Bind

variable {recipe : Recipe} {registry : Registry} {set : Params}

/-- Steps whose placeholders have values are filled. -/
theorem mapM_substitute {steps : List RecipeStep}
    (covered : ∀ step ∈ steps, set.Covers (collectPlaceholdersInOp step.op)) :
    steps.mapM (RecipeStep.substitute set) = .ok (steps.map (RecipeStep.fill set)) := by
  apply mapM_ok
  intro step hstep
  rw [RecipeStep.substitute, substituteOp_ok (covered step hstep)]
  rfl

theorem applyParams_ok (valid : ValidRecipe recipe registry) (covered : set.Covers recipe.params) :
    applyParams recipe set =
      .ok { recipe with steps := recipe.steps.map (RecipeStep.fill set) } := by
  have hnone : (recipe.params.find? fun name => !set.contains name) = none := by
    rw [List.find?_eq_none]
    intro name hname
    have hvalue := covered name hname
    rw [← Std.TreeMap.contains_eq_isSome_getElem?] at hvalue
    simp [hvalue]
  unfold applyParams
  rw [hnone]
  dsimp only
  rw [mapM_substitute fun step hstep name hname =>
    covered name ((valid.steps step hstep).declared name hname)]
  rfl

theorem applyParams_error (missing : ¬ set.Covers recipe.params) :
    ∃ error, applyParams recipe set = .error error := by
  unfold applyParams
  cases hfind : recipe.params.find? fun name => !set.contains name with
  | some name => exact ⟨_, rfl⟩
  | none =>
    refine absurd (fun name hname => ?_) missing
    rw [← Std.TreeMap.contains_eq_isSome_getElem?]
    have := List.find?_eq_none.mp hfind name hname
    rwa [Bool.not_eq_true, Bool.not_eq_false'] at this

end Bind

end GpuiAgent
