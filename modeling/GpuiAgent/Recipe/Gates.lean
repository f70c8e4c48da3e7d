import GpuiAgent.Recipe.Compile

namespace GpuiAgent

section Fill

variable {registry : Registry} {recipe : Recipe} {set : Params} {step : RecipeStep}

/-- A registered name holds no parameter, so its gate holds whatever the values are. -/
theorem fillString_registered {name : String} {schema : OpSchema}
    (h : registry.get name = some schema) (value : String → String) :
    fillString value name = name := by
  have hdollar : '$' ∉ name.toList := by
    intro hmem
    have := Registry.nameChar_of_get h '$' hmem
    simp [OpSchema.nameChar] at this
  exact fillString_of_no_placeholder value (stringHasPlaceholder_of_no_dollar hdollar)

/-- An invoke names an operation to invoke, whatever the values are. -/
theorem registered_fill (valid : ValidStep recipe registry step) {name : String} {args : Json}
    (h : (step.fill set).op = .invoke name args) :
    ∃ schema, registry.get name = some schema ∧ schema.kind = .invoke := by
  have gated := valid.gated
  unfold RecipeStep.fill at h
  dsimp only at h
  cases hop : step.op with
  | invoke template given =>
    rw [hop] at gated h
    obtain ⟨schema, hschema, hkind⟩ := gated
    obtain ⟨rfl, -⟩ := Op.invoke.inj h
    rw [fillString_registered hschema]
    exact ⟨schema, hschema, hkind⟩
  | _ =>
    rw [hop] at h
    cases h

/-- Some values turn the binding of an unconfirmed step into that of a quit. -/
def BindsQuit (set : Params) (step : RecipeStep) : Prop :=
  ∃ binding chord scope activate, step.op = .keybinding binding chord scope false activate ∧
    stringHasPlaceholder binding = true ∧ isQuitBinding (fillString set.value binding) = true

/-- Filling a valid step keeps its gate unless it binds a quit. -/
theorem gated_fill (valid : ValidStep recipe registry step) :
    Gated registry (step.fill set).op ↔ ¬ BindsQuit set step := by
  have gated := valid.gated
  unfold RecipeStep.fill BindsQuit
  dsimp only
  cases hop : step.op with
  | keybinding binding chord scope confirm activate =>
    rw [hop] at gated
    cases confirm with
    | true => exact iff_of_true (fun _ => rfl) (by simp)
    | false =>
      have literal : isQuitBinding binding = false := by simpa [Gated] using gated
      constructor
      · rintro h ⟨binding', _, _, _, hop', -, hquit⟩
        obtain ⟨rfl, -⟩ := Op.keybinding.inj hop'
        exact Bool.noConfusion (h hquit)
      · intro h hquit
        refine absurd ⟨binding, chord, scope, activate, rfl, ?_, hquit⟩ h
        by_contra hnone
        rw [fillString_of_no_placeholder _ (by simpa using hnone), literal] at hquit
        cases hquit
  | invoke name args =>
    have hfill : (step.fill set).op =
        .invoke (fillString set.value name) (args.mapText (fillString set.value)) := by
      rw [RecipeStep.fill, hop]
      rfl
    exact iff_of_true (registered_fill valid hfill) (by simp)
  | _ => exact iff_of_true trivial (by simp)

end Fill

/-- The ops of a plan pass the gates on literal ops exactly if no parameter value makes the binding
of an unconfirmed step that of a quit. -/
theorem gates_survive_iff (digest : Json → UInt64) (recipe : Recipe) (set : Params)
    (registry : Registry) (plan : Plan)
    (compiled : compilePlan digest recipe set registry = .ok plan) :
    (∀ planned ∈ plan.steps, Gated registry planned.op) ↔
      ∀ step ∈ recipe.steps, ¬ BindsQuit set step := by
  obtain ⟨valid, -⟩ := compilePlan_eq_ok.mp compiled
  rw [forall_planned_op compiled]
  exact forall₂_congr fun step hstep => gated_fill (valid.steps step hstep)

/-- A recipe that fires the binding it is given. -/
def fireRecipe : Recipe where
  name := "fire"
  params := ["p"]
  steps := [{ id := "fire", op := .keybinding "$p" none .global false false }]

/-- The plan that fires `binding`, with these effects. -/
def firePlan (binding : String) (effects : List Effect) (requiresYes : Bool) : Plan where
  name := "fire"
  app := none
  steps := [{
    id := "fire"
    op := .keybinding binding none .global false false
    needs := []
    screenshot := false
    effects
    schema := some "keybinding"
    idempotent := false }]
  waves := [["fire"]]
  effects
  requiresYes
  fingerprint := "0000000000000000"

def fireParams (binding : String) : Params := .ofList [("p", binding)]

theorem gates_survive_save :
    (∀ planned ∈ (firePlan "file.save" [.write] false).steps,
      Gated protocolRegistry planned.op) ↔
      ∀ step ∈ fireRecipe.steps, ¬ BindsQuit (fireParams "file.save") step :=
  gates_survive_iff (fun _ => 0) fireRecipe (fireParams "file.save") protocolRegistry
    (firePlan "file.save" [.write] false) (by decide +kernel)

/-- The parameter becomes the id of a quit, and the plan fires it without a confirmation. -/
theorem bound_quit_unconfirmed :
    compilePlan (fun _ => 0) fireRecipe (fireParams "app.quit") protocolRegistry =
        .ok (firePlan "app.quit" [.exit] true) ∧
      ¬ ∀ planned ∈ (firePlan "app.quit" [.exit] true).steps,
        Gated protocolRegistry planned.op := by
  refine ⟨by decide +kernel, fun gates => ?_⟩
  have := gates _ List.mem_cons_self
  exact absurd (this (by decide +kernel)) Bool.false_ne_true

end GpuiAgent
