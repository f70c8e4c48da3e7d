import GpuiAgent.Recipe.Compile

namespace GpuiAgent

open Framework

section Permuted

variable {recipe : Recipe} {registry : Registry} {steps steps' : List RecipeStep}

/-- No check depends on the order of the steps. -/
theorem ValidRecipe.of_perm (h : ValidRecipe recipe registry) (perm : steps.Perm recipe.steps) :
    ValidRecipe { recipe with steps } registry where
  version := h.version
  named := h.named
  nonempty := fun hnil => h.nonempty (List.nil_perm.mp (hnil ▸ perm))
  bounded := perm.length_eq ▸ h.bounded
  unique := (perm.map RecipeStep.id).nodup_iff.mpr h.unique
  steps := by
    intro step hstep
    have valid := h.steps step (perm.mem_iff.mp hstep)
    refine ⟨valid.named, valid.literal, fun need hneed => ?_, valid.declared, valid.gated⟩
    obtain ⟨hliteral, ⟨other, hother, hid⟩, hne⟩ := valid.needs need hneed
    exact ⟨hliteral, ⟨other, perm.mem_iff.mpr hother, hid⟩, hne⟩

theorem Linked.of_perm (h : Linked steps) (perm : steps'.Perm steps) : Linked steps' where
  unique := (perm.map RecipeStep.id).nodup_iff.mpr h.unique
  known := by
    intro step hstep need hneed
    obtain ⟨other, hother, hid⟩ := h.known step (perm.mem_iff.mp hstep) need hneed
    exact ⟨other, perm.mem_iff.mpr hother, hid⟩

theorem mem_needsGraph_perm (perm : steps.Perm steps') (e : String × String) :
    e ∈ needsGraph steps ↔ e ∈ needsGraph steps' :=
  (perm.flatMap_right _).mem_iff

/-- A sorted wave without repetitions is determined by its ids. -/
theorem wave_eq_of_mem {wave wave' : List String} (hnodup : wave.Nodup) (hnodup' : wave'.Nodup)
    (hsorted : wave.Pairwise (· ≤ ·)) (hsorted' : wave'.Pairwise (· ≤ ·))
    (same : ∀ id, id ∈ wave ↔ id ∈ wave') : wave = wave' := by
  have perm : wave.Perm wave' := (List.perm_ext_iff_of_nodup hnodup hnodup').mpr same
  exact perm.eq_of_pairwise (fun _ _ _ _ hle hge => le_antisymm hle hge) hsorted hsorted'

section Scheduled

variable {ordered ordered' : List Nat} {waves waves' : List (List String)}

theorem Scheduled.nodup_flatten (h : Scheduled steps ordered waves) (linked : Linked steps) :
    waves.flatten.Nodup :=
  h.flatten_perm.nodup_iff.mpr linked.unique

/-- The wave of one schedule is that of the other. -/
theorem Scheduled.wave_of_perm (h : Scheduled steps ordered waves)
    (h' : Scheduled steps' ordered' waves') (linked : Linked steps) (perm : steps.Perm steps')
    {k : Nat} {wave : List String} (hk : waves[k]? = some wave) : waves'[k]? = some wave := by
  obtain ⟨hne, hsorted, hmem⟩ := h.layer k wave hk
  have hnodup := (List.nodup_flatten.mp (h.nodup_flatten linked)).1 wave (List.mem_of_getElem? hk)
  -- some id of the wave has a wave in the other schedule, which its longest chain numbers `k`
  obtain ⟨id, hid⟩ := List.exists_mem_of_ne_nil wave hne
  obtain ⟨hknown, hchain⟩ := (hmem id).mp hid
  obtain ⟨step, hstep, rfl⟩ := List.mem_map.mp hknown
  obtain ⟨m, wave', hm, hid'⟩ := h'.exists_wave (perm.mem_iff.mp hstep)
  obtain ⟨-, hsorted', hmem'⟩ := h'.layer m wave' hm
  have hchain' := ((hmem' _).mp hid').2
  rw [← Edges.longestChain_congr (mem_needsGraph_perm perm)] at hchain'
  obtain rfl := hchain.unique hchain'
  have hnodup' := (List.nodup_flatten.mp (h'.nodup_flatten (linked.of_perm perm.symm))).1 wave'
    (List.mem_of_getElem? hm)
  have same (id : String) : id ∈ wave' ↔ id ∈ wave := by
    rw [hmem, hmem', Edges.longestChain_congr (mem_needsGraph_perm perm),
      (perm.map RecipeStep.id).mem_iff]
  rw [hm, wave_eq_of_mem hnodup' hnodup hsorted' hsorted same]

/-- The waves depend on the set of the steps only. -/
theorem Scheduled.waves_eq (h : Scheduled steps ordered waves)
    (h' : Scheduled steps' ordered' waves') (linked : Linked steps) (perm : steps.Perm steps') :
    waves = waves' := by
  refine List.ext_getElem? fun k => ?_
  cases hk : waves[k]? with
  | some wave => exact (h.wave_of_perm h' linked perm hk).symm
  | none =>
    cases hk' : waves'[k]? with
    | none => rfl
    | some wave =>
      have := h'.wave_of_perm h (linked.of_perm perm.symm) perm.symm hk'
      cases hk.symm.trans this

end Scheduled

end Permuted

section Same

variable {digest : Json → UInt64} {registry : Registry} {bound bound' : Recipe}
  {ordered ordered' : List Nat} {waves : List (List String)}

theorem eq_of_map_eq {α β : Type} {f : α → β} {xs ys : List α} (h : xs.map f = ys.map f)
    (inj : ∀ x ∈ xs, ∀ y ∈ ys, f x = f y → x = y) : xs = ys := by
  have hlen : xs.length = ys.length := by simpa using congrArg List.length h
  refine List.ext_getElem hlen fun i hi hi' => ?_
  refine inj _ (List.getElem_mem hi) _ (List.getElem_mem hi') ?_
  have := List.getElem_of_eq h (by simpa using hi : i < (xs.map f).length)
  rwa [List.getElem_map, List.getElem_map] at this

/-- A plan is determined by its name, its app, its steps and its waves. -/
theorem assemblePlan_congr (hname : bound.name = bound'.name) (happ : bound.app = bound'.app)
    (hsteps : (assemblePlan digest registry bound ordered waves).steps =
      (assemblePlan digest registry bound' ordered' waves).steps) :
    assemblePlan digest registry bound ordered waves =
      assemblePlan digest registry bound' ordered' waves := by
  unfold assemblePlan at hsteps ⊢
  dsimp only at hsteps ⊢
  rw [hsteps, hname, happ]

/-- A step of a recipe with needs is planned without a look at the other steps. -/
theorem planStep_explicit {steps steps' : List RecipeStep} (perm : steps.Perm steps')
    (explicit : (steps.all fun step => step.needs.isEmpty) = false) (i j : Nat)
    (step : RecipeStep) :
    planStep registry steps i step = planStep registry steps' j step := by
  have explicit' : (steps'.all fun step => step.needs.isEmpty) = false := by
    rw [← perm.all_eq, explicit]
  unfold planStep
  rw [explicit, explicit']
  rfl

/-- Permuted steps with needs, put in order, give the same plan. -/
theorem assemblePlan_perm (perm : bound.steps.Perm bound'.steps)
    (hname : bound.name = bound'.name) (happ : bound.app = bound'.app)
    (linked : Linked bound.steps)
    (explicit : (bound.steps.all fun step => step.needs.isEmpty) = false)
    (once : ScheduledOnce bound.steps ordered waves)
    (once' : ScheduledOnce bound'.steps ordered' waves) :
    assemblePlan digest registry bound ordered waves =
      assemblePlan digest registry bound' ordered' waves := by
  refine assemblePlan_congr hname happ (eq_of_map_eq (f := PlannedStep.id) ?_ ?_)
  · rw [assemblePlan_ids once.perm, assemblePlan_ids once'.perm, ← once.flat, once'.flat]
  · intro planned hplanned planned' hplanned' hid
    obtain ⟨i, step, hi, rfl⟩ := (mem_assemblePlan once.perm).mp hplanned
    obtain ⟨j, step', hj, rfl⟩ := (mem_assemblePlan once'.perm).mp hplanned'
    have hstep : step = step' := by
      have hmem := List.mem_of_getElem? hi
      have hmem' := perm.mem_iff.mpr (List.mem_of_getElem? hj)
      exact List.inj_on_of_nodup_map linked.unique hmem hmem' hid
    rw [← hstep]
    exact planStep_explicit perm explicit i j step

end Same

section Order

variable {digest : Json → UInt64} {recipe : Recipe} {set : Params} {registry : Registry}

theorem usesExplicitNeeds_perm {steps : List RecipeStep} (perm : steps.Perm recipe.steps) :
    Recipe.usesExplicitNeeds { recipe with steps } = recipe.usesExplicitNeeds :=
  perm.any_eq

/-- If the recipe compiles, so does a permutation of its steps, to the same plan. -/
theorem compilePlan_perm {steps : List RecipeStep} (perm : steps.Perm recipe.steps)
    (explicit : recipe.usesExplicitNeeds = true) {plan : Plan}
    (h : compilePlan digest recipe set registry = .ok plan) :
    compilePlan digest { recipe with steps } set registry = .ok plan := by
  obtain ⟨valid, covered, ordered, waves, hschedule, rfl⟩ := compilePlan_eq_ok.mp h
  have hperm : (recipe.bind set).steps.Perm (Recipe.bind { recipe with steps } set).steps :=
    (perm.map _).symm
  have linked : Linked (recipe.bind set).steps := linked_bind valid.linked
  have hall : ((recipe.bind set).steps.all fun step => step.needs.isEmpty) = false := by
    rw [all_needs_bind, explicit]
    rfl
  have linked' := linked.of_perm hperm.symm
  obtain ⟨succeeds, fails⟩ := schedule_spec linked hall
  obtain ⟨succeeds', -⟩ := schedule_spec linked' (hperm.all_eq ▸ hall)
  by_cases acyclic : (needsGraph (recipe.bind set).steps).Acyclic
  · obtain ⟨ordered, waves, heq, hscheduled⟩ := succeeds acyclic
    obtain ⟨rfl, rfl⟩ := Prod.mk.inj (Except.ok.inj (heq.symm.trans hschedule))
    obtain ⟨ordered', waves', heq', hscheduled'⟩ :=
      succeeds' ((Edges.acyclic_congr (mem_needsGraph_perm hperm)).mp acyclic)
    obtain rfl := hscheduled.waves_eq hscheduled' linked hperm
    refine compilePlan_eq_ok.mpr ⟨valid.of_perm perm, covered, ordered', _, heq', ?_⟩
    exact assemblePlan_perm hperm rfl rfl linked hall (schedule_once linked hschedule)
      (schedule_once linked' heq')
  · cases (fails acyclic).symm.trans hschedule

/-- Without needs the waves are the steps. -/
theorem compilePlan_waves (implicit : recipe.usesExplicitNeeds = false) {plan : Plan}
    (h : compilePlan digest recipe set registry = .ok plan) :
    plan.waves = recipe.steps.map fun step => [step.id] := by
  obtain ⟨-, -, ordered, waves, hschedule, rfl⟩ := compilePlan_eq_ok.mp h
  rw [schedule_implicit (by rw [all_needs_bind, implicit]; rfl)] at hschedule
  obtain ⟨rfl, rfl⟩ := Prod.mk.inj (Except.ok.inj hschedule)
  unfold assemblePlan Recipe.bind
  dsimp only
  rw [List.map_map]
  rfl

theorem compilePlan_reverse_implicit (implicit : recipe.usesExplicitNeeds = false) {plan : Plan}
    (h : compilePlan digest recipe set registry = .ok plan) :
    ∃ plan', compilePlan digest { recipe with steps := recipe.steps.reverse } set registry =
      .ok plan' := by
  obtain ⟨valid, covered, -⟩ := compilePlan_eq_ok.mp h
  have himplicit := (usesExplicitNeeds_perm recipe.steps.reverse_perm).trans implicit
  exact ⟨_, compilePlan_eq_ok.mpr ⟨valid.of_perm recipe.steps.reverse_perm, covered, _, _,
    schedule_implicit (by rw [all_needs_bind, himplicit]; rfl), rfl⟩⟩

/-- Different ids read backwards are the same exactly if there is at most one. -/
theorem eq_reverse_iff {ids : List String} (hnodup : ids.Nodup) :
    ids = ids.reverse ↔ ids.length < 2 := by
  constructor
  · intro heq
    by_contra hlen
    have hfirst : 0 < ids.length := by omega
    have hlast : ids.length - 1 < ids.length := by omega
    have hget := List.getElem_of_eq heq hfirst
    rw [List.getElem_reverse] at hget
    have := hnodup.getElem_inj_iff.mp hget
    omega
  · intro hlen
    cases ids with
    | nil => rfl
    | cons id rest =>
      rw [List.length_cons] at hlen
      have hrest : rest = [] := List.eq_nil_of_length_eq_zero (by omega)
      rw [hrest]
      rfl

/-- The two runs of the check differ exactly on a sequence of at least two steps. -/
theorem orderCheck_spec {plan : Plan} (h : compilePlan digest recipe set registry = .ok plan) :
    ∃ check, orderCheck digest recipe set registry = .ok check ∧
      (check.orderDependent = true ↔
        recipe.usesExplicitNeeds = false ∧ 2 ≤ recipe.steps.length) := by
  cases hneeds : recipe.usesExplicitNeeds with
  | true =>
    have hreverse := compilePlan_perm recipe.steps.reverse_perm hneeds h
    refine ⟨⟨false, plan.waves, plan.waves⟩, ?_, by simp⟩
    unfold orderCheck
    rw [h, hreverse]
    simp [bind, Except.bind, pure, Except.pure]
  | false =>
    obtain ⟨plan', hreverse⟩ := compilePlan_reverse_implicit hneeds h
    have hneeds' := (usesExplicitNeeds_perm recipe.steps.reverse_perm).trans hneeds
    have hwaves := compilePlan_waves hneeds h
    have hwaves' := compilePlan_waves hneeds' hreverse
    obtain ⟨valid, -⟩ := compilePlan_eq_ok.mp h
    refine ⟨_, by unfold orderCheck; rw [h, hreverse]; rfl, ?_⟩
    have hsets (steps : List RecipeStep) :
        (steps.map fun step => [step.id]).map List.toFinset =
          (steps.map RecipeStep.id).map fun id => ({id} : Finset String) := by
      rw [List.map_map, List.map_map]
      rfl
    have hinj : Function.Injective fun id : String => ({id} : Finset String) :=
      Finset.singleton_injective
    rw [decide_eq_true_iff, hwaves, hwaves', hsets, hsets, Ne, hinj.list_map.eq_iff,
      List.map_reverse, eq_reverse_iff valid.unique, List.length_map, not_lt, and_iff_right rfl]

end Order

/-- A recipe with needs compiles to the same plan in every order of its steps, or in none; the order
check finds the recipes without needs and with two steps or more. -/
theorem compilePlan_order_independent (digest : Json → UInt64) (recipe : Recipe) (set : Params)
    (registry : Registry) :
    (recipe.usesExplicitNeeds = true → ∀ steps : List RecipeStep, steps.Perm recipe.steps →
      (∃ plan, compilePlan digest recipe set registry = .ok plan ∧
        compilePlan digest { recipe with steps } set registry = .ok plan) ∨
      (∃ error error', compilePlan digest recipe set registry = .error error ∧
        compilePlan digest { recipe with steps } set registry = .error error')) ∧
    ∀ plan, compilePlan digest recipe set registry = .ok plan →
      ∃ check, orderCheck digest recipe set registry = .ok check ∧
        (check.orderDependent = true ↔
          recipe.usesExplicitNeeds = false ∧ 2 ≤ recipe.steps.length) := by
  refine ⟨fun explicit steps perm => ?_, fun plan h => orderCheck_spec h⟩
  have explicit' := (usesExplicitNeeds_perm perm).trans explicit
  cases h : compilePlan digest recipe set registry with
  | ok plan => exact .inl ⟨plan, rfl, compilePlan_perm perm explicit h⟩
  | error error =>
    cases h' : compilePlan digest { recipe with steps } set registry with
    | error error' => exact .inr ⟨error, error', rfl, rfl⟩
    | ok plan =>
      have := compilePlan_perm perm.symm explicit' h'
      cases h.symm.trans this

theorem compilePlan_order_independent_diamond :
    ∃ plan, compilePlan (fun _ => 0) diamond ∅ protocolRegistry = .ok plan ∧
      compilePlan (fun _ => 0) { diamond with steps := diamond.steps.reverse } ∅
        protocolRegistry = .ok plan := by
  have hok : (compilePlan (fun _ => 0) diamond ∅ protocolRegistry).isOk = true := by
    decide +kernel
  obtain h | ⟨error, -, herror, -⟩ := (compilePlan_order_independent (fun _ => 0) diamond ∅
    protocolRegistry).1 rfl _ diamond.steps.reverse_perm
  · exact h
  · rw [herror] at hok
    cases hok

end GpuiAgent
