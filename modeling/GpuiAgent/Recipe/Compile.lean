import GpuiAgent.Recipe.Schedule

namespace GpuiAgent

open Framework

/-- The recipe with its parameters bound. -/
def Recipe.bind (recipe : Recipe) (set : Params) : Recipe :=
  { recipe with steps := recipe.steps.map (RecipeStep.fill set) }

section Compile

variable {digest : Json → UInt64} {recipe : Recipe} {set : Params} {registry : Registry}

theorem bind_of_no_params (valid : ValidRecipe recipe registry) (h : recipe.params = []) :
    recipe.bind set = recipe := by
  have hsteps : recipe.steps.map (RecipeStep.fill set) = recipe.steps := by
    refine (List.map_congr_left fun step hstep => ?_).trans (List.map_id _)
    have hnone : collectPlaceholdersInOp step.op = [] := by
      rw [List.eq_nil_iff_forall_not_mem]
      intro name hname
      have := (valid.steps step hstep).declared name hname
      rw [h] at this
      cases this
    rw [RecipeStep.fill, Op.mapText_of_collect_nil _ hnone]
    rfl
  rw [Recipe.bind, hsteps]

theorem boundRecipe_ok (valid : ValidRecipe recipe registry) (covered : set.Covers recipe.params) :
    boundRecipe recipe set = .ok (recipe.bind set) := by
  unfold boundRecipe
  by_cases hempty : recipe.params = []
  · rw [bind_of_no_params valid hempty, hempty]
    rfl
  · rw [if_neg (by simpa using hempty)]
    exact applyParams_ok valid covered

theorem boundRecipe_error (missing : ¬ set.Covers recipe.params) :
    ∃ error, boundRecipe recipe set = .error error := by
  unfold boundRecipe
  have hempty : recipe.params ≠ [] := by
    intro hnil
    rw [hnil] at missing
    exact missing fun name hname => absurd hname List.not_mem_nil
  rw [if_neg (by simpa using hempty)]
  exact applyParams_error missing

/-- Compiling is checking, binding, scheduling and assembling. -/
theorem compilePlan_eq_ok {plan : Plan} : compilePlan digest recipe set registry = .ok plan ↔
    ValidRecipe recipe registry ∧ set.Covers recipe.params ∧
      ∃ ordered waves, schedule (recipe.bind set).steps = .ok (ordered, waves) ∧
        plan = assemblePlan digest registry (recipe.bind set) ordered waves := by
  unfold compilePlan
  rw [← validateRecipe_eq_ok]
  cases hvalid : validateRecipe recipe registry with
  | error error =>
    refine iff_of_false (fun h => ?_) fun h => ?_
    · cases h
    · cases h.1
  | ok _ =>
    have valid := validateRecipe_eq_ok.mp hvalid
    by_cases covered : set.Covers recipe.params
    · rw [boundRecipe_ok valid covered]
      cases hschedule : schedule (recipe.bind set).steps with
      | error error => simp [bind, Except.bind, hschedule]
      | ok result =>
        obtain ⟨ordered, waves⟩ := result
        simp only [bind, Except.bind, hschedule, pure, Except.pure, covered, true_and,
          Except.ok.injEq, Prod.mk.injEq]
        constructor
        · rintro rfl
          exact ⟨ordered, waves, ⟨rfl, rfl⟩, rfl⟩
        · rintro ⟨_, _, ⟨rfl, rfl⟩, rfl⟩
          rfl
    · obtain ⟨error, herror⟩ := @boundRecipe_error recipe set covered
      rw [herror]
      refine iff_of_false (fun h => ?_) fun h => covered h.2.1
      cases h

end Compile

section Bound

variable {recipe : Recipe} {set : Params}

@[simp] theorem fill_id (step : RecipeStep) : (step.fill set).id = step.id := rfl

@[simp] theorem fill_needs (step : RecipeStep) : (step.fill set).needs = step.needs := rfl

theorem map_id_bind :
    (recipe.bind set).steps.map RecipeStep.id = recipe.steps.map RecipeStep.id := by
  unfold Recipe.bind
  rw [List.map_map]
  rfl

/-- Binding leaves the graph of the needs as it is. -/
theorem linked_bind (linked : Linked recipe.steps) : Linked (recipe.bind set).steps where
  unique := by
    rw [map_id_bind]
    exact linked.unique
  known := by
    intro step hstep need hneed
    obtain ⟨before, hbefore, rfl⟩ := List.mem_map.mp hstep
    obtain ⟨other, hother, rfl⟩ := linked.known before hbefore need hneed
    exact ⟨other.fill set, List.mem_map_of_mem hother, rfl⟩

theorem all_needs_bind : ((recipe.bind set).steps.all fun step => step.needs.isEmpty) =
    !recipe.usesExplicitNeeds := by
  unfold Recipe.bind Recipe.usesExplicitNeeds
  rw [List.all_map, List.not_any_eq_all_not]
  simp [Function.comp_def]

end Bound

section Planned

variable {digest : Json → UInt64} {registry : Registry} {bound : Recipe} {steps : List RecipeStep}
  {ordered : List Nat} {waves : List (List String)}

/-- What every schedule has: each step once, and no empty wave. -/
structure ScheduledOnce (steps : List RecipeStep) (ordered : List Nat)
    (waves : List (List String)) : Prop where
  perm : ordered.Perm (List.range steps.length)
  flat : waves.flatten = ordered.map (stepId steps)
  nonempty : ∀ wave ∈ waves, wave ≠ []

theorem schedule_once (linked : Linked steps) (h : schedule steps = .ok (ordered, waves)) :
    ScheduledOnce steps ordered waves := by
  cases hall : steps.all fun step => step.needs.isEmpty with
  | true =>
    rw [schedule_implicit hall] at h
    obtain ⟨rfl, rfl⟩ := Prod.mk.inj (Except.ok.inj h)
    refine ⟨List.Perm.refl _, ?_, fun wave hwave => ?_⟩
    · have hflat := List.flatMap_singleton' (steps.map RecipeStep.id)
      rwa [List.flatMap_def, List.map_map, ← map_stepId_range] at hflat
    · obtain ⟨step, -, rfl⟩ := List.mem_map.mp hwave
      exact List.cons_ne_nil _ _
  | false =>
    obtain ⟨succeeds, fails⟩ := schedule_spec linked hall
    by_cases acyclic : (needsGraph steps).Acyclic
    · obtain ⟨ordered', waves', heq, hscheduled⟩ := succeeds acyclic
      obtain ⟨rfl, rfl⟩ := Prod.mk.inj (Except.ok.inj (heq.symm.trans h))
      refine ⟨hscheduled.perm, hscheduled.flat, fun wave hwave => ?_⟩
      obtain ⟨k, hk⟩ := List.mem_iff_getElem?.mp hwave
      exact (hscheduled.layer k wave hk).1
    · cases (fails acyclic).symm.trans h

/-- The planned steps are the bound steps, in order. -/
theorem assemblePlan_ids (hordered : ordered.Perm (List.range bound.steps.length)) :
    (assemblePlan digest registry bound ordered waves).steps.map PlannedStep.id =
      ordered.map (stepId bound.steps) := by
  have hrange (i : Nat) (hi : i ∈ ordered) : i < bound.steps.length :=
    List.mem_range.mp (hordered.mem_iff.mp hi)
  unfold assemblePlan
  dsimp only
  clear hordered
  induction ordered with
  | nil => rfl
  | cons i ordered ih =>
    have hlt := hrange i List.mem_cons_self
    have hi := List.getElem?_eq_getElem hlt
    rw [List.filterMap_cons, hi, Option.map_some]
    dsimp only
    rw [List.map_cons, List.map_cons, ih fun j hj => hrange j (List.mem_cons_of_mem _ hj),
      stepId_eq hi]
    rfl

theorem mem_assemblePlan (hordered : ordered.Perm (List.range bound.steps.length))
    {planned : PlannedStep} :
    planned ∈ (assemblePlan digest registry bound ordered waves).steps ↔
      ∃ i step, bound.steps[i]? = some step ∧ planned = planStep registry bound.steps i step := by
  unfold assemblePlan
  dsimp only
  rw [List.mem_filterMap]
  constructor
  · rintro ⟨i, -, h⟩
    obtain ⟨step, hstep, rfl⟩ := Option.map_eq_some_iff.mp h
    exact ⟨i, step, hstep, rfl⟩
  · rintro ⟨i, step, hstep, rfl⟩
    have hi := (List.getElem?_eq_some_iff.mp hstep).1
    exact ⟨i, hordered.mem_iff.mpr (List.mem_range.mpr hi), by rw [hstep]; rfl⟩

/-- The plan of a recipe that compiles, in terms of its bound steps. -/
structure Compiled (registry : Registry) (bound : Recipe) (plan : Plan) : Prop where
  ids : (plan.steps.map PlannedStep.id).Nodup
  flat : plan.waves.flatten = plan.steps.map PlannedStep.id
  nonempty : ∀ wave ∈ plan.waves, wave ≠ []
  planned : ∀ planned, planned ∈ plan.steps ↔
    ∃ i step, bound.steps[i]? = some step ∧ planned = planStep registry bound.steps i step
  requiresYes : plan.requiresYes = true ↔ ∃ planned ∈ plan.steps, Effect.exit ∈ planned.effects

theorem compilePlan_compiled {recipe : Recipe} {set : Params} {plan : Plan}
    (h : compilePlan digest recipe set registry = .ok plan) :
    Compiled registry (recipe.bind set) plan := by
  obtain ⟨valid, -, ordered, waves, hschedule, rfl⟩ := compilePlan_eq_ok.mp h
  have linked : Linked (recipe.bind set).steps := linked_bind valid.linked
  have once := schedule_once linked hschedule
  have hids := @assemblePlan_ids digest registry _ _ waves once.perm
  refine ⟨?_, ?_, once.nonempty, fun planned => mem_assemblePlan once.perm, ?_⟩
  · rw [hids]
    refine List.Nodup.map_on (fun i hi j hj => ?_) (once.perm.nodup_iff.mpr List.nodup_range)
    exact stepId_injective linked.unique i (once.perm.mem_iff.mp hi) j (once.perm.mem_iff.mp hj)
  · rw [hids]
    exact once.flat
  · unfold assemblePlan
    simp

/-- The ops of the plan are those of the steps with their parameters bound. -/
theorem forall_planned_op {recipe : Recipe} {set : Params} {plan : Plan}
    (h : compilePlan digest recipe set registry = .ok plan) (P : Op → Prop) :
    (∀ planned ∈ plan.steps, P planned.op) ↔ ∀ step ∈ recipe.steps, P (step.fill set).op := by
  have compiled := compilePlan_compiled h
  constructor
  · intro hall step hstep
    have hbound : step.fill set ∈ (recipe.bind set).steps := List.mem_map_of_mem hstep
    obtain ⟨i, hi⟩ := List.mem_iff_getElem?.mp hbound
    exact hall _ ((compiled.planned _).mpr ⟨i, step.fill set, hi, rfl⟩)
  · intro hall planned hplanned
    obtain ⟨i, bound, hi, rfl⟩ := (compiled.planned planned).mp hplanned
    obtain ⟨step, hstep, rfl⟩ := List.mem_map.mp (List.mem_of_getElem? hi)
    exact hall step hstep

end Planned

end GpuiAgent
