import GpuiAgent.Recipe.Plan

namespace GpuiAgent

open Framework

/-- The graph of the needs, by step id. -/
def needsGraph (steps : List RecipeStep) : Edges String :=
  steps.flatMap fun step => step.needs.map fun need => (need, step.id)

/-- Steps with different ids, whose needs are steps. -/
structure Linked (steps : List RecipeStep) : Prop where
  unique : (steps.map RecipeStep.id).Nodup
  known : ∀ step ∈ steps, ∀ need ∈ step.needs, ∃ other ∈ steps, other.id = need

theorem ValidRecipe.linked {recipe : Recipe} {registry : Registry}
    (h : ValidRecipe recipe registry) : Linked recipe.steps :=
  ⟨h.unique, fun step hstep need hneed => ((h.steps step hstep).needs need hneed).2.1⟩

section Index

variable {steps : List RecipeStep}

theorem stepId_eq {i : Nat} {step : RecipeStep} (h : steps[i]? = some step) :
    stepId steps i = step.id := by
  rw [stepId, h]
  rfl

theorem stepId_injective (unique : (steps.map RecipeStep.id).Nodup) :
    ∀ i ∈ List.range steps.length, ∀ j ∈ List.range steps.length,
      stepId steps i = stepId steps j → i = j := by
  intro i hi j hj heq
  rw [List.mem_range] at hi hj
  rw [stepId_eq (List.getElem?_eq_getElem hi), stepId_eq (List.getElem?_eq_getElem hj)] at heq
  have hi' : i < (steps.map RecipeStep.id).length := by simpa using hi
  have hj' : j < (steps.map RecipeStep.id).length := by simpa using hj
  have hget : (steps.map RecipeStep.id)[i] = (steps.map RecipeStep.id)[j] := by simpa using heq
  exact unique.getElem_inj_iff.mp hget

/-- The index finds each step by its id. -/
theorem stepIndex_get (unique : (steps.map RecipeStep.id).Nodup) {i : Nat} {step : RecipeStep}
    (h : steps[i]? = some step) : (stepIndex steps)[step.id]? = some i := by
  unfold stepIndex
  refine Std.TreeMap.getElem?_ofList_of_mem (k := step.id) (Std.ReflCmp.compare_self) ?_ ?_
  · have hkeys : ((steps.zipIdx.map fun entry => (entry.1.id, entry.2)).map Prod.fst).Nodup := by
      have : (steps.zipIdx.map fun entry => (entry.1.id, entry.2)).map Prod.fst =
          steps.map RecipeStep.id := by
        rw [List.map_map, ← List.zipIdx_map_fst 0 steps, List.map_map]
        simp
      rw [this]
      exact unique
    rw [List.Nodup, List.pairwise_map] at hkeys
    exact hkeys.imp fun hne heq => hne (Std.LawfulEqCmp.eq_of_compare heq)
  · exact List.mem_map.mpr ⟨(step, i), List.mem_zipIdx_iff_getElem?.mpr h, rfl⟩

end Index

/-- The edges between indices are the graph of the needs under the steps' ids. -/
theorem needEdges_ok {steps : List RecipeStep} (linked : Linked steps) :
    ∃ edges, needEdges steps = .ok edges ∧
      edges.rename (stepId steps) = needsGraph steps ∧
      ∀ e ∈ edges, e.1 ∈ List.range steps.length ∧ e.2 ∈ List.range steps.length := by
  let indexOf (need : String) : Nat := (stepIndex steps)[need]?.getD 0
  have found (step : RecipeStep) (hstep : step ∈ steps) (need : String)
      (hneed : need ∈ step.needs) :
      (stepIndex steps)[need]? = some (indexOf need) ∧ indexOf need < steps.length ∧
        stepId steps (indexOf need) = need := by
    obtain ⟨other, hother, rfl⟩ := linked.known step hstep need hneed
    obtain ⟨j, hj⟩ := List.mem_iff_getElem?.mp hother
    have hget := stepIndex_get linked.unique hj
    have hindex : indexOf other.id = j := by
      unfold indexOf
      rw [hget]
      rfl
    rw [hindex]
    exact ⟨hget, (List.getElem?_eq_some_iff.mp hj).1, stepId_eq hj⟩
  have entry (e : RecipeStep × Nat) (he : e ∈ steps.zipIdx) : steps[e.2]? = some e.1 :=
    List.mem_zipIdx_iff_getElem?.mp he
  have hmem (e : RecipeStep × Nat) (he : e ∈ steps.zipIdx) : e.1 ∈ steps :=
    List.mem_of_getElem? (entry e he)
  refine ⟨(steps.zipIdx.map fun e => e.1.needs.map fun need => (indexOf need, e.2)).flatten,
    ?_, ?_, ?_⟩
  · unfold needEdges
    dsimp only
    rw [mapM_ok (fun e => e.1.needs.map fun need => (indexOf need, e.2))]
    · rfl
    · intro e he
      apply mapM_ok
      intro need hneed
      rw [(found e.1 (hmem e he) need hneed).1]
  · unfold needsGraph Edges.rename
    rw [List.map_flatten, List.map_map, ← List.flatMap_def]
    conv_rhs => rw [← List.zipIdx_map_fst 0 steps, List.flatMap_map]
    refine List.flatMap_congr fun e he => ?_
    rw [Function.comp_apply, List.map_map]
    refine List.map_congr_left fun need hneed => ?_
    rw [Function.comp_apply, Prod.map_apply, (found e.1 (hmem e he) need hneed).2.2,
      stepId_eq (entry e he)]
  · intro edge hedge
    obtain ⟨row, hrow, hin⟩ := List.mem_flatten.mp hedge
    obtain ⟨e, he, rfl⟩ := List.mem_map.mp hrow
    obtain ⟨need, hneed, rfl⟩ := List.mem_map.mp hin
    exact ⟨List.mem_range.mpr (found e.1 (hmem e he) need hneed).2.1,
      List.mem_range.mpr (List.getElem?_eq_some_iff.mp (entry e he)).1⟩

/-- What a schedule has: each step once, in the wave whose number is the length of the step's
longest chain of needs; a wave in the order of the ids. -/
structure Scheduled (steps : List RecipeStep) (ordered : List Nat) (waves : List (List String)) :
    Prop where
  perm : ordered.Perm (List.range steps.length)
  flat : waves.flatten = ordered.map (stepId steps)
  layer : ∀ k wave, waves[k]? = some wave → wave ≠ [] ∧ wave.Pairwise (· ≤ ·) ∧
    ∀ id, id ∈ wave ↔ id ∈ steps.map RecipeStep.id ∧ (needsGraph steps).LongestChain k id

/-- A sorted wave has its ids in order. -/
theorem pairwise_sortByKey (steps : List RecipeStep) (wave : List Nat) :
    ((sortByKey steps wave).map (stepId steps)).Pairwise (· ≤ ·) := by
  rw [List.pairwise_map]
  have : Std.Total fun i j => stepId steps i ≤ stepId steps j := ⟨fun i j => le_total _ _⟩
  have : IsTrans Nat fun i j => stepId steps i ≤ stepId steps j := ⟨fun _ _ _ => le_trans⟩
  exact List.pairwise_insertionSort _ wave

theorem map_stepId_range (steps : List RecipeStep) :
    (List.range steps.length).map (stepId steps) = steps.map RecipeStep.id := by
  refine List.ext_getElem (by simp) fun i hi hi' => ?_
  have hlt : i < steps.length := by simpa using hi
  rw [List.getElem_map, List.getElem_range, List.getElem_map,
    stepId_eq (List.getElem?_eq_getElem hlt)]

section Explicit

variable {steps : List RecipeStep}

/-- Where some step has a need, the schedule is what Kahn's algorithm leaves. -/
theorem schedule_explicit (linked : Linked steps)
    (explicit : (steps.all fun step => step.needs.isEmpty) = false) :
    ∃ edges done waves, edges.rename (stepId steps) = needsGraph steps ∧
      (∀ e ∈ edges, e.1 ∈ List.range steps.length ∧ e.2 ∈ List.range steps.length) ∧
      Kahn.Layered edges (List.range steps.length) (sortByKey steps) done waves ∧
      done.next = [] ∧
      schedule steps = if done.remaining ≠ 0 then .error CYCLE
        else .ok (done.ordered, waves.map fun wave => wave.map (stepId steps)) := by
  obtain ⟨edges, hedges, hgraph, closed⟩ := needEdges_ok linked
  have arranged (l : List Nat) : (sortByKey steps l).Perm l := List.perm_insertionSort _ l
  have hstart := @Kahn.layered_start _ _ edges _ (sortByKey steps) closed List.nodup_range
  rw [List.length_range] at hstart
  obtain ⟨done, waves, hrun, hnone, hlayered⟩ := Kahn.run_layered closed arranged
    (steps.length + 1) hstart (by simp)
  refine ⟨edges, done, waves, hgraph, closed, hlayered, hnone, ?_⟩
  unfold schedule
  rw [explicit, hedges]
  simp only [Bool.false_eq_true, if_false, bind, Except.bind, Kahn.foldl_link]
  rw [hrun]
  dsimp only
  by_cases complete : done.remaining = 0
  · rw [if_neg (not_not.mpr complete), if_neg (not_not.mpr complete)]
    rfl
  · rw [if_pos complete, if_pos complete]
    rfl

/-- Without needs the steps are a sequence, one to a wave. -/
theorem schedule_implicit (implicit : (steps.all fun step => step.needs.isEmpty) = true) :
    schedule steps = .ok (List.range steps.length, steps.map fun step => [step.id]) := by
  unfold schedule
  rw [implicit]
  rfl

theorem scheduled_of_layered {edges : Edges Nat} {done : Kahn Nat} {waves : List (List Nat)}
    (h : Kahn.Layered edges (List.range steps.length) (sortByKey steps) done waves)
    (unique : (steps.map RecipeStep.id).Nodup)
    (hgraph : edges.rename (stepId steps) = needsGraph steps)
    (closed : ∀ e ∈ edges, e.1 ∈ List.range steps.length ∧ e.2 ∈ List.range steps.length)
    (complete : done.remaining = 0) :
    Scheduled steps done.ordered (waves.map fun wave => wave.map (stepId steps)) where
  perm := by
    have hsub : done.ordered ⊆ List.range steps.length := fun v hv => ((h.done v).mp hv).1
    refine (List.subperm_of_subset h.nodup hsub).perm_of_length_le ?_
    have := h.remaining
    omega
  flat := by rw [h.flat, List.map_flatten]
  layer := by
    intro k wave hk
    rw [List.getElem?_map, Option.map_eq_some_iff] at hk
    obtain ⟨indices, hk, rfl⟩ := hk
    obtain ⟨ready, rfl, hready, -, hmem⟩ := h.layer k indices hk
    have hperm : (sortByKey steps ready).Perm ready := List.perm_insertionSort _ ready
    have inj := stepId_injective unique
    refine ⟨?_, pairwise_sortByKey steps ready, fun id => ?_⟩
    · rw [Ne, List.map_eq_nil_iff]
      intro hnil
      rw [hnil] at hperm
      exact hready hperm.symm.eq_nil
    · rw [← map_stepId_range, List.mem_map, List.mem_map, ← hgraph]
      constructor
      · rintro ⟨i, hi, rfl⟩
        obtain ⟨hrange, hchain⟩ := (hmem i).mp (hperm.mem_iff.mp hi)
        exact ⟨⟨i, hrange, rfl⟩, (Edges.longestChain_rename closed inj hrange).mpr hchain⟩
      · rintro ⟨⟨i, hrange, rfl⟩, hchain⟩
        have hchain := (Edges.longestChain_rename closed inj hrange).mp hchain
        exact ⟨i, hperm.mem_iff.mpr ((hmem i).mpr ⟨hrange, hchain⟩), rfl⟩

/-- The schedule of steps with needs: it exists exactly if they have no cycle. -/
theorem schedule_spec (linked : Linked steps)
    (explicit : (steps.all fun step => step.needs.isEmpty) = false) :
    ((needsGraph steps).Acyclic →
      ∃ ordered waves, schedule steps = .ok (ordered, waves) ∧ Scheduled steps ordered waves) ∧
    (¬ (needsGraph steps).Acyclic → schedule steps = .error CYCLE) := by
  obtain ⟨edges, done, waves, hgraph, closed, hlayered, hnone, heq⟩ :=
    schedule_explicit linked explicit
  have hacyclic : done.remaining = 0 ↔ (needsGraph steps).Acyclic := by
    rw [hlayered.remaining_eq_zero_iff closed List.nodup_range hnone, ← hgraph,
      Edges.acyclic_rename closed (stepId_injective linked.unique)]
  constructor
  · intro acyclic
    have complete := hacyclic.mpr acyclic
    refine ⟨_, _, ?_, scheduled_of_layered hlayered linked.unique hgraph closed complete⟩
    rw [heq, if_neg (not_not.mpr complete)]
  · intro cyclic
    rw [heq, if_pos fun complete => cyclic (hacyclic.mp complete)]

end Explicit

/-- The promise of a schedule of `steps`, wave by wave. -/
structure LayeredByNeeds (steps : List RecipeStep) (ordered : List Nat)
    (waves : List (List String)) : Prop where
  once : ordered.Perm (List.range steps.length)
  flat : waves.flatten = ordered.map (stepId steps)
  one_wave : ∀ step ∈ steps,
    ∃! k : Nat, ∃ wave : List String, waves[k]? = some wave ∧ step.id ∈ wave
  depth : ∀ (k : Nat) (wave : List String), waves[k]? = some wave →
    ∀ id ∈ wave, (needsGraph steps).LongestChain k id
  earlier : ∀ (k : Nat) (wave : List String), waves[k]? = some wave → ∀ step ∈ steps,
    step.id ∈ wave → ∀ need ∈ step.needs,
      ∃ m : Nat, m < k ∧ ∃ before : List String, waves[m]? = some before ∧ need ∈ before

section Scheduled

variable {steps : List RecipeStep} {ordered : List Nat} {waves : List (List String)}

theorem Scheduled.flatten_perm (h : Scheduled steps ordered waves) :
    waves.flatten.Perm (steps.map RecipeStep.id) := by
  rw [h.flat, ← map_stepId_range]
  exact h.perm.map _

/-- Every step has a wave. -/
theorem Scheduled.exists_wave (h : Scheduled steps ordered waves) {step : RecipeStep}
    (hstep : step ∈ steps) :
    ∃ (k : Nat) (wave : List String), waves[k]? = some wave ∧ step.id ∈ wave := by
  have hmem : step.id ∈ waves.flatten := h.flatten_perm.mem_iff.mpr (List.mem_map_of_mem hstep)
  obtain ⟨wave, hwave, hid⟩ := List.mem_flatten.mp hmem
  obtain ⟨k, hk⟩ := List.mem_iff_getElem?.mp hwave
  exact ⟨k, wave, hk, hid⟩

theorem Scheduled.layered (h : Scheduled steps ordered waves) (linked : Linked steps) :
    LayeredByNeeds steps ordered waves where
  once := h.perm
  flat := h.flat
  one_wave := by
    intro step hstep
    obtain ⟨k, wave, hk, hid⟩ := h.exists_wave hstep
    refine ⟨k, ⟨wave, hk, hid⟩, ?_⟩
    rintro m ⟨other, hm, hid'⟩
    exact (((h.layer m other hm).2.2 _).mp hid').2.unique (((h.layer k wave hk).2.2 _).mp hid).2
  depth := fun k wave hk id hid => (((h.layer k wave hk).2.2 id).mp hid).2
  earlier := by
    intro k wave hk step hstep hid need hneed
    obtain ⟨other, hother, rfl⟩ := linked.known step hstep need hneed
    obtain ⟨m, before, hm, hbefore⟩ := h.exists_wave hother
    have hedge : (other.id, step.id) ∈ needsGraph steps :=
      List.mem_flatMap.mpr ⟨step, hstep, List.mem_map.mpr ⟨other.id, hneed, rfl⟩⟩
    have hlt := (((h.layer m before hm).2.2 _).mp hbefore).2.lt_of_mem
      (((h.layer k wave hk).2.2 _).mp hid).2 hedge
    exact ⟨m, hlt, before, hm, hbefore⟩

end Scheduled

/-- For an accepted recipe with needs the scheduler succeeds exactly if the needs have no cycle,
puts each step in the wave its longest chain of needs asks for, and never takes a counter below
zero. -/
theorem schedule_correct (recipe : Recipe) (registry : Registry)
    (accepted : validateRecipe recipe registry = .ok ())
    (explicit : recipe.usesExplicitNeeds = true) :
    ((∃ result, schedule recipe.steps = .ok result) ↔ (needsGraph recipe.steps).Acyclic) ∧
      (∀ ordered waves, schedule recipe.steps = .ok (ordered, waves) →
        LayeredByNeeds recipe.steps ordered waves) ∧
      (¬ (needsGraph recipe.steps).Acyclic → schedule recipe.steps = .error CYCLE) ∧
      schedule recipe.steps ≠ .error OVERFLOW := by
  have linked := (validateRecipe_eq_ok.mp accepted).linked
  have hall : (recipe.steps.all fun step => step.needs.isEmpty) = false := by
    rw [List.all_eq_false]
    obtain ⟨step, hstep, hneeds⟩ := List.any_eq_true.mp explicit
    exact ⟨step, hstep, by simpa using hneeds⟩
  obtain ⟨succeeds, fails⟩ := schedule_spec linked hall
  by_cases acyclic : (needsGraph recipe.steps).Acyclic
  · obtain ⟨ordered, waves, heq, hscheduled⟩ := succeeds acyclic
    refine ⟨iff_of_true ⟨_, heq⟩ acyclic, fun ordered' waves' heq' => ?_,
      fun h => absurd acyclic h, fun h => ?_⟩
    · obtain ⟨rfl, rfl⟩ := Prod.mk.inj (Except.ok.inj (heq.symm.trans heq'))
      exact hscheduled.layered linked
    · cases heq.symm.trans h
  · have heq := fails acyclic
    refine ⟨iff_of_false (fun ⟨result, h⟩ => ?_) acyclic, fun ordered waves h => ?_,
      fun _ => heq, fun h => ?_⟩
    · cases heq.symm.trans h
    · cases heq.symm.trans h
    · exact absurd (Except.error.inj (heq.symm.trans h)) (by decide)

/-- A diamond with a repeated need. -/
def diamond : Recipe where
  name := "diamond"
  steps := [{ id := "report", needs := ["left", "right", "left"], op := .revision },
    { id := "right", needs := ["start"], op := .hello },
    { id := "left", needs := ["start"], op := .hello }, { id := "start", op := .hello }]

theorem schedule_correct_diamond :
    LayeredByNeeds diamond.steps [3, 2, 1, 0] [["start"], ["left", "right"], ["report"]] :=
  (schedule_correct diamond protocolRegistry (by decide +kernel) rfl).2.1 [3, 2, 1, 0]
    [["start"], ["left", "right"], ["report"]] (by decide +kernel)

end GpuiAgent
