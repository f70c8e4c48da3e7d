import Mathlib.Data.List.Perm.Basic
import Mathlib.Data.List.Nodup
import Mathlib.Data.Set.Finite.List
import Mathlib.Logic.Function.Basic
import Mathlib.Order.WellFoundedSet

namespace GpuiAgent.Framework

/-- A graph as the list of its edges `(u, v)`: `v` needs `u`, as often as the edge is listed. -/
abbrev Edges (ν : Type*) := List (ν × ν)

namespace Edges

variable {ν : Type*} (edges : Edges ν)

/-- `v` has a chain of `k` edges that leads to it. -/
def HasChain : Nat → ν → Prop
  | 0, _ => True
  | k + 1, v => ∃ u, (u, v) ∈ edges ∧ HasChain k u

/-- `k` is the length of the longest chain that leads to `v`. -/
def LongestChain (k : Nat) (v : ν) : Prop :=
  HasChain edges k v ∧ ∀ m, HasChain edges m v → m ≤ k

def Acyclic : Prop := ∀ v, ¬ Relation.TransGen (fun u v => (u, v) ∈ edges) v v

variable {edges}

theorem HasChain.pred {k : Nat} : ∀ {v : ν}, HasChain edges (k + 1) v → HasChain edges k v := by
  induction k with
  | zero =>
    intro v _
    trivial
  | succ k ih =>
    rintro v ⟨u, hu, hk⟩
    exact ⟨u, hu, ih hk⟩

theorem HasChain.mono {v : ν} {k m : Nat} (h : HasChain edges k v) (hm : m ≤ k) :
    HasChain edges m v := by
  induction k with
  | zero =>
    obtain rfl : m = 0 := by omega
    exact h
  | succ k ih =>
    rcases Nat.lt_or_eq_of_le hm with hlt | rfl
    · exact ih h.pred (by omega)
    · exact h

theorem longestChain_iff {k : Nat} {v : ν} :
    LongestChain edges k v ↔ HasChain edges k v ∧ ¬ HasChain edges (k + 1) v := by
  refine and_congr_right fun _ => ⟨fun h hk => ?_, fun h m hm => ?_⟩
  · have := h _ hk
    omega
  · by_contra hlt
    exact h (hm.mono (by omega))

theorem LongestChain.unique {k m : Nat} {v : ν} (h : LongestChain edges k v)
    (h' : LongestChain edges m v) : k = m :=
  Nat.le_antisymm (h'.2 _ h.1) (h.2 _ h'.1)

/-- A vertex that is needed has a shorter longest chain. -/
theorem LongestChain.lt_of_mem {k m : Nat} {u v : ν} (hu : LongestChain edges m u)
    (hv : LongestChain edges k v) (h : (u, v) ∈ edges) : m < k :=
  hv.2 (m + 1) ⟨u, h, hu.1⟩

theorem hasChain_of_transGen {u v : ν} (h : Relation.TransGen (fun u v => (u, v) ∈ edges) u v)
    {k : Nat} (hu : HasChain edges k u) : HasChain edges (k + 1) v := by
  induction h with
  | single h => exact ⟨u, h, hu⟩
  | tail _ h ih => exact ⟨_, h, ih.pred⟩

/-- Chains that lead to a vertex on a cycle get arbitrarily long. -/
theorem hasChain_of_cycle {v : ν} (h : Relation.TransGen (fun u v => (u, v) ∈ edges) v v)
    (k : Nat) : HasChain edges k v := by
  induction k with
  | zero => trivial
  | succ k ih => exact hasChain_of_transGen h ih

/-- One bound for the chains to all vertices that `v` needs. -/
theorem exists_bound {v : ν} (es : Edges ν)
    (h : ∀ u, (u, v) ∈ es → ∃ k, ¬ HasChain edges k u) :
    ∃ k, ∀ u, (u, v) ∈ es → ¬ HasChain edges k u := by
  induction es with
  | nil => exact ⟨0, fun u hu => absurd hu List.not_mem_nil⟩
  | cons e es ih =>
    obtain ⟨m, hm⟩ := ih fun u hu => h u (List.mem_cons_of_mem _ hu)
    by_cases he : e.2 = v
    · obtain ⟨k, hk⟩ := h e.1 (he ▸ List.mem_cons_self)
      refine ⟨max k m, fun u hu hchain => ?_⟩
      rcases List.mem_cons.mp hu with rfl | hu
      · exact hk (hchain.mono (Nat.le_max_left k m))
      · exact hm u hu (hchain.mono (Nat.le_max_right k m))
    · refine ⟨m, fun u hu => ?_⟩
      rcases List.mem_cons.mp hu with rfl | hu
      · exact absurd rfl he
      · exact hm u hu

/-- In an acyclic graph they do not. -/
theorem Acyclic.exists_not_hasChain (acyclic : Acyclic edges) (v : ν) :
    ∃ k, ¬ HasChain edges k v := by
  have next (v : ν) (h : ∀ u, (u, v) ∈ edges → ∃ k, ¬ HasChain edges k u) :
      ∃ k, ¬ HasChain edges k v := by
    obtain ⟨k, hk⟩ := exists_bound edges h
    exact ⟨k + 1, fun ⟨u, hu, hchain⟩ => hk u hu hchain⟩
  -- induction over the finitely many vertices that something needs
  have needed : {u | ∃ v, (u, v) ∈ edges}.Finite := by
    refine (edges.map Prod.fst).finite_toSet.subset ?_
    rintro u ⟨v, hu⟩
    exact List.mem_map.mpr ⟨(u, v), hu, rfl⟩
  have : IsStrictOrder ν (Relation.TransGen fun u v => (u, v) ∈ edges) :=
    { irrefl := acyclic, trans := fun _ _ _ => Relation.TransGen.trans }
  refine next v fun u hu => ?_
  refine needed.wellFoundedOn.induction (r := Relation.TransGen fun u v => (u, v) ∈ edges)
    (P := fun u => ∃ k, ¬ HasChain edges k u) ⟨v, hu⟩ fun u _ ih => next u fun w hw => ?_
  exact ih w ⟨u, hw⟩ (Relation.TransGen.single hw)

theorem acyclic_iff : Acyclic edges ↔ ∀ v, ∃ k, ¬ HasChain edges k v := by
  refine ⟨Acyclic.exists_not_hasChain, fun h v hcycle => ?_⟩
  obtain ⟨k, hk⟩ := h v
  exact hk (hasChain_of_cycle hcycle k)

section Congr

variable {edges' : Edges ν}

/-- Chains depend on the set of the edges only. -/
theorem hasChain_congr (same : ∀ e, e ∈ edges ↔ e ∈ edges') {k : Nat} :
    ∀ {v : ν}, HasChain edges k v ↔ HasChain edges' k v := by
  induction k with
  | zero => exact Iff.rfl
  | succ k ih => exact exists_congr fun u => and_congr (same _) ih

theorem longestChain_congr (same : ∀ e, e ∈ edges ↔ e ∈ edges') {k : Nat} {v : ν} :
    LongestChain edges k v ↔ LongestChain edges' k v := by
  rw [longestChain_iff, longestChain_iff, hasChain_congr same, hasChain_congr same]

theorem acyclic_congr (same : ∀ e, e ∈ edges ↔ e ∈ edges') :
    Acyclic edges ↔ Acyclic edges' := by
  rw [acyclic_iff, acyclic_iff]
  exact forall_congr' fun v => exists_congr fun k => not_congr (hasChain_congr same)

end Congr

section Rename

variable {μ : Type*} {f : ν → μ} {vertices : List ν}

/-- The graph with its vertices renamed. -/
def rename (f : ν → μ) (edges : Edges ν) : Edges μ := edges.map (Prod.map f f)

/-- Different names keep the chains. -/
theorem hasChain_rename (closed : ∀ e ∈ edges, e.1 ∈ vertices ∧ e.2 ∈ vertices)
    (inj : ∀ u ∈ vertices, ∀ v ∈ vertices, f u = f v → u = v) {k : Nat} :
    ∀ {v : ν}, v ∈ vertices → (HasChain (edges.rename f) k (f v) ↔ HasChain edges k v) := by
  induction k with
  | zero => exact fun _ => Iff.rfl
  | succ k ih =>
    intro v hv
    constructor
    · rintro ⟨w, hw, hchain⟩
      obtain ⟨⟨u, v'⟩, he, heq⟩ := List.mem_map.mp hw
      obtain ⟨hu, hv'⟩ := closed _ he
      obtain ⟨rfl, hname⟩ := Prod.mk.inj heq
      obtain rfl := inj v' hv' v hv hname
      exact ⟨u, he, (ih hu).mp hchain⟩
    · rintro ⟨u, hu, hchain⟩
      exact ⟨f u, List.mem_map.mpr ⟨(u, v), hu, rfl⟩, (ih (closed _ hu).1).mpr hchain⟩

theorem longestChain_rename (closed : ∀ e ∈ edges, e.1 ∈ vertices ∧ e.2 ∈ vertices)
    (inj : ∀ u ∈ vertices, ∀ v ∈ vertices, f u = f v → u = v) {k : Nat} {v : ν}
    (hv : v ∈ vertices) : LongestChain (edges.rename f) k (f v) ↔ LongestChain edges k v := by
  rw [longestChain_iff, longestChain_iff, hasChain_rename closed inj hv,
    hasChain_rename closed inj hv]

theorem acyclic_rename (closed : ∀ e ∈ edges, e.1 ∈ vertices ∧ e.2 ∈ vertices)
    (inj : ∀ u ∈ vertices, ∀ v ∈ vertices, f u = f v → u = v) :
    Acyclic (edges.rename f) ↔ Acyclic edges := by
  rw [acyclic_iff, acyclic_iff]
  constructor
  · intro h v
    by_cases hv : v ∈ vertices
    · obtain ⟨k, hk⟩ := h (f v)
      exact ⟨k, fun hchain => hk ((hasChain_rename closed inj hv).mpr hchain)⟩
    · exact ⟨1, fun ⟨u, hu, _⟩ => hv (closed _ hu).2⟩
  · intro h w
    by_cases hw : ∃ v ∈ vertices, f v = w
    · obtain ⟨v, hv, rfl⟩ := hw
      obtain ⟨k, hk⟩ := h v
      exact ⟨k, fun hchain => hk ((hasChain_rename closed inj hv).mp hchain)⟩
    · refine ⟨1, fun ⟨u, hu, _⟩ => hw ?_⟩
      obtain ⟨e, he, heq⟩ := List.mem_map.mp hu
      exact ⟨e.2, (closed _ he).2, (Prod.mk.inj heq).2⟩

end Rename

end Edges

/-- What Kahn's algorithm has done so far: the vertices in order, how many are left, the counters of
unmet needs, and the vertices whose counter has come down to zero. -/
structure Kahn (ν : Type*) where
  ordered : List ν
  remaining : Nat
  indegree : ν → Nat
  next : List ν

namespace Kahn

variable {ν : Type*} [DecidableEq ν]

/-- Take one from the counter of each dependent; `none` if a counter would go below zero. -/
def release (indegree : ν → Nat) (next : List ν) : List ν → Option ((ν → Nat) × List ν)
  | [] => some (indegree, next)
  | v :: vs => match indegree v with
    | 0 => none
    | d + 1 =>
      release (Function.update indegree v d) (if d = 0 then next ++ [v] else next) vs

/-- Put one vertex in order. -/
def finish (adj : ν → List ν) (s : Kahn ν) (u : ν) : Option (Kahn ν) :=
  match s.remaining with
  | 0 => none
  | remaining + 1 => (release s.indegree s.next (adj u)).map fun (indegree, next) =>
    { ordered := s.ordered ++ [u], remaining, indegree, next }

/-- The waves from one on: `arrange` puts the vertices that are ready in order. `fuel` is the number
of rounds, the last of which finds nothing ready. -/
def run (adj : ν → List ν) (arrange : List ν → List ν) :
    (fuel : Nat) → Kahn ν → List (List ν) → Option (Kahn ν × List (List ν))
  | 0, _, _ => none
  | fuel + 1, s, waves =>
    if s.next.isEmpty then some (s, waves)
    else
      let wave := arrange s.next
      match wave.foldlM (finish adj) { s with next := [] } with
      | none => none
      | some s => run adj arrange fuel s (waves ++ [wave])

section Release

variable {indegree : ν → Nat} {vs : List ν}

/-- Counters that are large enough go down by the number of times each dependent is listed. -/
theorem release_spec (vs : List ν) : ∀ (indegree : ν → Nat) (next : List ν),
    (∀ v, vs.count v ≤ indegree v) →
    ∃ zero, release indegree next vs = some (fun v => indegree v - vs.count v, next ++ zero) ∧
      zero.Nodup ∧ ∀ v, v ∈ zero ↔ v ∈ vs ∧ indegree v = vs.count v := by
  induction vs with
  | nil =>
    intro indegree next _
    exact ⟨[], by simp [release], List.nodup_nil, by simp⟩
  | cons v vs ih =>
    intro indegree next enough
    have hv := enough v
    rw [List.count_cons_self] at hv
    obtain ⟨d, hd⟩ : ∃ d, indegree v = d + 1 := ⟨indegree v - 1, by omega⟩
    have enough' (w : ν) : vs.count w ≤ Function.update indegree v d w := by
      by_cases hw : w = v
      · subst hw
        rw [Function.update_self]
        omega
      · rw [Function.update_of_ne hw]
        have := enough w
        rwa [List.count_cons_of_ne (Ne.symm hw)] at this
    obtain ⟨zero, hrun, hnodup, hmem⟩ := ih (Function.update indegree v d)
      (if d = 0 then next ++ [v] else next) enough'
    have hcounters : (fun w => Function.update indegree v d w - vs.count w) =
        fun w => indegree w - (v :: vs).count w := by
      funext w
      by_cases hw : w = v
      · subst hw
        rw [Function.update_self, List.count_cons_self]
        omega
      · rw [Function.update_of_ne hw, List.count_cons_of_ne (Ne.symm hw)]
    have hother (w : ν) (hw : w ≠ v) :
        w ∈ zero ↔ w ∈ v :: vs ∧ indegree w = (v :: vs).count w := by
      rw [hmem, Function.update_of_ne hw, List.count_cons_of_ne (Ne.symm hw), List.mem_cons]
      simp [hw]
    have hself : v ∈ zero ↔ v ∈ vs ∧ d = vs.count v := by
      rw [hmem, Function.update_self]
    unfold release
    rw [hd]
    dsimp only
    rw [hrun, hcounters]
    by_cases hzero : d = 0
    · subst hzero
      have hout : v ∉ vs := by
        rw [← List.count_eq_zero]
        omega
      refine ⟨v :: zero, by simp, ?_, fun w => ?_⟩
      · rw [List.nodup_cons]
        exact ⟨fun h => hout (hself.mp h).1, hnodup⟩
      · by_cases hw : w = v
        · subst hw
          simp [hd, List.count_eq_zero.mpr hout]
        · rw [← hother w hw]
          simp [hw]
    · refine ⟨zero, by simp [hzero], hnodup, fun w => ?_⟩
      by_cases hw : w = v
      · subst hw
        rw [hself, List.count_cons_self, hd]
        constructor
        · rintro ⟨hin, heq⟩
          exact ⟨List.mem_cons_self, by omega⟩
        · rintro ⟨-, heq⟩
          have heq : d = vs.count w := by omega
          exact ⟨List.count_pos_iff.mp (by omega), heq⟩
      · exact hother w hw

end Release

/-- The vertices that need `u`, once for each edge. -/
def dependents (edges : Edges ν) (u : ν) : List ν := (edges.filter fun e => e.1 = u).map Prod.snd

/-- How many edges lead to `v` from a vertex that is not done. -/
def pending (edges : Edges ν) (done : List ν) (v : ν) : Nat :=
  edges.countP fun e => e.2 = v ∧ e.1 ∉ done

/-- The dependents and counters with one more edge. -/
def link (g : (ν → List ν) × (ν → Nat)) (e : ν × ν) : (ν → List ν) × (ν → Nat) :=
  (Function.update g.1 e.1 (g.1 e.1 ++ [e.2]), Function.update g.2 e.2 (g.2 e.2 + 1))

/-- Linking the edges one by one gives each vertex its dependents and the number of its needs. -/
theorem foldl_link (edges : Edges ν) :
    edges.foldl link (fun _ => [], fun _ => 0) = (dependents edges, pending edges []) := by
  induction edges using List.reverseRecOn with
  | nil => rfl
  | append_singleton edges e ih =>
    rw [List.foldl_append, List.foldl_cons, List.foldl_nil, ih]
    unfold link
    refine Prod.ext (funext fun u => ?_) (funext fun v => ?_)
    · by_cases hu : u = e.1
      · subst hu
        simp [dependents]
      · simp [dependents, Function.update_of_ne hu, Ne.symm hu]
    · by_cases hv : v = e.2
      · subst hv
        simp [pending]
      · simp [pending, Function.update_of_ne hv, Ne.symm hv]

section Pending

variable {edges : Edges ν} {done : List ν}

theorem pending_eq_zero {v : ν} : pending edges done v = 0 ↔ ∀ u, (u, v) ∈ edges → u ∈ done := by
  unfold pending
  rw [List.countP_eq_zero]
  constructor
  · intro h u hu
    simpa using h (u, v) hu
  · rintro h ⟨u, w⟩ hu
    simp only [decide_eq_true_eq, not_and, not_not]
    rintro rfl
    exact h u hu

/-- Putting `u` in order takes its edges off. -/
theorem pending_append {u : ν} (hu : u ∉ done) (v : ν) :
    pending edges (done ++ [u]) v + (dependents edges u).count v = pending edges done v := by
  unfold pending dependents
  rw [List.count, List.countP_map, List.countP_filter]
  induction edges with
  | nil => rfl
  | cons e edges ih =>
    simp only [List.countP_cons, ← ih]
    by_cases hv : e.2 = v
    · by_cases he : e.1 = u
      · simp [hv, he, hu]
        omega
      · simp [hv, he]
        omega
    · simp [hv]

theorem pending_mono {more : List ν} (h : done ⊆ more) (v : ν) :
    pending edges more v ≤ pending edges done v := by
  refine List.countP_mono_left fun e _ he => ?_
  simp only [decide_eq_true_eq] at he ⊢
  exact ⟨he.1, fun hdone => he.2 (h hdone)⟩

end Pending

/-- The state within a wave that began with `start` done. -/
structure WaveInv (edges : Edges ν) (size : Nat) (start : List ν) (s : Kahn ν) : Prop where
  counters : s.indegree = pending edges s.ordered
  remaining : s.remaining + s.ordered.length = size
  nodup : s.next.Nodup
  next : ∀ v, v ∈ s.next ↔ pending edges s.ordered v = 0 ∧ pending edges start v ≠ 0
  grown : start ⊆ s.ordered

/-- Putting one vertex in order keeps the invariant, and takes nothing below zero. -/
theorem WaveInv.finish {edges : Edges ν} {size : Nat} {start : List ν} {s : Kahn ν}
    (h : WaveInv edges size start s) {u : ν} (hu : u ∉ s.ordered) (room : s.ordered.length < size) :
    ∃ s', Kahn.finish (dependents edges) s u = some s' ∧ s'.ordered = s.ordered ++ [u] ∧
      WaveInv edges size start s' := by
  have hsplit (v : ν) : pending edges (s.ordered ++ [u]) v + (dependents edges u).count v =
      pending edges s.ordered v := pending_append hu v
  have hpast (v : ν) : pending edges s.ordered v ≤ pending edges start v := pending_mono h.grown v
  obtain ⟨remaining, hremaining⟩ : ∃ n, s.remaining = n + 1 := by
    have := h.remaining
    exact ⟨s.remaining - 1, by omega⟩
  have enough (v : ν) : (dependents edges u).count v ≤ s.indegree v := by
    rw [h.counters]
    have := hsplit v
    omega
  obtain ⟨zero, hrun, hnodup, hzero⟩ := release_spec (dependents edges u) s.indegree s.next enough
  have hcounters : (fun v => s.indegree v - (dependents edges u).count v) =
      pending edges (s.ordered ++ [u]) := by
    funext v
    rw [h.counters]
    have := hsplit v
    omega
  have hmem (v : ν) : v ∈ zero ↔
      v ∈ dependents edges u ∧ pending edges (s.ordered ++ [u]) v = 0 := by
    rw [hzero, h.counters]
    refine and_congr_right fun _ => ?_
    have := hsplit v
    omega
  refine ⟨⟨s.ordered ++ [u], remaining, pending edges (s.ordered ++ [u]), s.next ++ zero⟩, ?_, rfl,
    rfl, ?_, ?_, fun v => ?_, fun v hv => List.mem_append_left _ (h.grown hv)⟩
  · unfold Kahn.finish
    rw [hremaining]
    dsimp only
    rw [hrun, hcounters]
    rfl
  · have := h.remaining
    change remaining + (s.ordered ++ [u]).length = size
    rw [List.length_append, List.length_singleton]
    omega
  · refine h.nodup.append hnodup fun v hv hnew => ?_
    have hzero := ((h.next v).mp hv).1
    have hcount := List.count_pos_iff.mpr ((hmem v).mp hnew).1
    have := hsplit v
    omega
  · change v ∈ s.next ++ zero ↔ pending edges (s.ordered ++ [u]) v = 0 ∧ _
    rw [List.mem_append, h.next, hmem]
    have hv := hsplit v
    have hp := hpast v
    constructor
    · rintro (⟨hzero, hstart⟩ | ⟨hdep, hzero⟩)
      · exact ⟨by omega, hstart⟩
      · have hcount := List.count_pos_iff.mpr hdep
        exact ⟨hzero, by omega⟩
    · rintro ⟨hzero, hstart⟩
      by_cases hbefore : pending edges s.ordered v = 0
      · exact .inl ⟨hbefore, hstart⟩
      · exact .inr ⟨List.count_pos_iff.mp (by omega), hzero⟩

/-- So does a whole wave. -/
theorem WaveInv.wave {edges : Edges ν} {size : Nat} {start : List ν} (wave : List ν) :
    ∀ {s : Kahn ν}, WaveInv edges size start s → (s.ordered ++ wave).Nodup →
      (s.ordered ++ wave).length ≤ size →
      ∃ s', wave.foldlM (Kahn.finish (dependents edges)) s = some s' ∧
        s'.ordered = s.ordered ++ wave ∧ WaveInv edges size start s' := by
  induction wave with
  | nil =>
    intro s h _ _
    exact ⟨s, rfl, (List.append_nil _).symm, h⟩
  | cons u wave ih =>
    intro s h hnodup hlen
    have hu : u ∉ s.ordered := fun hmem =>
      (List.nodup_append.mp hnodup).2.2 u hmem u List.mem_cons_self rfl
    have room : s.ordered.length < size := by
      rw [List.length_append, List.length_cons] at hlen
      omega
    obtain ⟨s', hs', hordered, h'⟩ := h.finish hu room
    have hassoc : s'.ordered ++ wave = s.ordered ++ u :: wave := by
      rw [hordered, List.append_assoc]
      rfl
    obtain ⟨t, ht, htordered, hinv⟩ := ih h' (hassoc ▸ hnodup) (hassoc ▸ hlen)
    refine ⟨t, ?_, htordered.trans hassoc, hinv⟩
    rw [List.foldlM_cons, hs']
    exact ht

section Run

variable {edges : Edges ν} {vertices : List ν} {arrange : List ν → List ν}

/-- The state between two waves. After `k` waves exactly the vertices without a chain of length `k`
are done, and wave `i` holds those whose longest chain has length `i`. -/
structure Layered (edges : Edges ν) (vertices : List ν) (arrange : List ν → List ν) (s : Kahn ν)
    (waves : List (List ν)) : Prop where
  counters : s.indegree = pending edges s.ordered
  remaining : s.remaining + s.ordered.length = vertices.length
  flat : s.ordered = waves.flatten
  nodup : s.ordered.Nodup
  done : ∀ v, v ∈ s.ordered ↔ v ∈ vertices ∧ ¬ edges.HasChain waves.length v
  next_nodup : s.next.Nodup
  next : ∀ v, v ∈ s.next ↔ v ∈ vertices ∧ edges.LongestChain waves.length v
  layer : ∀ k wave, waves[k]? = some wave → ∃ ready, wave = arrange ready ∧ ready ≠ [] ∧
    ready.Nodup ∧ ∀ v, v ∈ ready ↔ v ∈ vertices ∧ edges.LongestChain k v

/-- If the vertices without a chain of length `k` are done, no needs are pending of those without a
chain of length `k + 1`. -/
theorem pending_eq_zero_iff {done : List ν} {k : Nat}
    (closed : ∀ e ∈ edges, e.1 ∈ vertices ∧ e.2 ∈ vertices)
    (h : ∀ v, v ∈ done ↔ v ∈ vertices ∧ ¬ edges.HasChain k v) (v : ν) :
    pending edges done v = 0 ↔ ¬ edges.HasChain (k + 1) v := by
  rw [pending_eq_zero]
  constructor
  · rintro hall ⟨u, hu, hchain⟩
    exact ((h u).mp (hall u hu)).2 hchain
  · intro hnone u hu
    exact (h u).mpr ⟨(closed _ hu).1, fun hchain => hnone ⟨u, hu, hchain⟩⟩

theorem layered_start (closed : ∀ e ∈ edges, e.1 ∈ vertices ∧ e.2 ∈ vertices)
    (unique : vertices.Nodup) :
    Layered edges vertices arrange ⟨[], vertices.length, pending edges [],
      vertices.filter fun v => pending edges [] v = 0⟩ [] where
  counters := rfl
  remaining := Nat.add_zero _
  flat := rfl
  nodup := List.nodup_nil
  done := fun v => by simp [Edges.HasChain]
  next_nodup := unique.filter _
  next := by
    intro v
    have hdone (v : ν) : v ∈ ([] : List ν) ↔ v ∈ vertices ∧ ¬ edges.HasChain 0 v := by
      simp [Edges.HasChain]
    rw [List.mem_filter, decide_eq_true_iff, pending_eq_zero_iff closed hdone,
      Edges.longestChain_iff]
    exact and_congr_right fun _ => (and_iff_right trivial).symm
  layer := fun k wave h => by simp at h

/-- One wave keeps the layers. -/
theorem Layered.wave {s : Kahn ν} {waves : List (List ν)}
    (h : Layered edges vertices arrange s waves)
    (closed : ∀ e ∈ edges, e.1 ∈ vertices ∧ e.2 ∈ vertices)
    (arranged : ∀ l, (arrange l).Perm l) (ready : s.next ≠ []) :
    ∃ s', (arrange s.next).foldlM (finish (dependents edges)) { s with next := [] } = some s' ∧
      s'.ordered = s.ordered ++ arrange s.next ∧
      Layered edges vertices arrange s' (waves ++ [arrange s.next]) := by
  have hwave (v : ν) : v ∈ arrange s.next ↔ v ∈ vertices ∧ edges.LongestChain waves.length v := by
    rw [(arranged s.next).mem_iff, h.next]
  have hnodup : (s.ordered ++ arrange s.next).Nodup := by
    refine h.nodup.append ((arranged s.next).nodup_iff.mpr h.next_nodup) fun v hv hw => ?_
    exact ((h.done v).mp hv).2 ((hwave v).mp hw).2.1
  have hsub : s.ordered ++ arrange s.next ⊆ vertices := by
    intro v hv
    rcases List.mem_append.mp hv with hv | hv
    · exact ((h.done v).mp hv).1
    · exact ((hwave v).mp hv).1
  have hstart : WaveInv edges vertices.length s.ordered { s with next := [] } :=
    { counters := h.counters
      remaining := h.remaining
      nodup := List.nodup_nil
      next := fun v => iff_of_false List.not_mem_nil fun hv => hv.2 hv.1
      grown := fun v hv => hv }
  obtain ⟨s', hrun, hordered, hinv⟩ := hstart.wave (arrange s.next) hnodup
    (List.subperm_of_subset hnodup hsub).length_le
  have hlength : (waves ++ [arrange s.next]).length = waves.length + 1 := by simp
  have hdone (v : ν) : v ∈ s'.ordered ↔ v ∈ vertices ∧ ¬ edges.HasChain (waves.length + 1) v := by
    rw [hordered, List.mem_append, h.done, hwave, Edges.longestChain_iff]
    constructor
    · rintro (⟨hv, hnone⟩ | ⟨hv, -, hnone⟩)
      · exact ⟨hv, fun hchain => hnone hchain.pred⟩
      · exact ⟨hv, hnone⟩
    · rintro ⟨hv, hnone⟩
      by_cases hchain : edges.HasChain waves.length v
      · exact .inr ⟨hv, hchain, hnone⟩
      · exact .inl ⟨hv, hchain⟩
  refine ⟨s', hrun, hordered, ?_⟩
  refine ⟨hinv.counters, hinv.remaining, ?_, hordered ▸ hnodup, hlength ▸ hdone, hinv.nodup,
    fun v => ?_, fun k wave hk => ?_⟩
  · rw [hordered, h.flat]
    simp
  · rw [hlength, hinv.next, pending_eq_zero_iff closed hdone, Ne, pending_eq_zero_iff closed h.done,
      not_not, Edges.longestChain_iff]
    constructor
    · rintro ⟨hnone, u, hu, hchain⟩
      exact ⟨(closed _ hu).2, ⟨u, hu, hchain⟩, hnone⟩
    · rintro ⟨-, hchain, hnone⟩
      exact ⟨hnone, hchain⟩
  · rcases Nat.lt_or_ge k waves.length with hlt | hge
    · rw [List.getElem?_append_left hlt] at hk
      exact h.layer k wave hk
    · rw [List.getElem?_append_right hge, List.getElem?_singleton] at hk
      split_ifs at hk with hzero
      obtain rfl := Option.some.inj hk
      obtain rfl : k = waves.length := by omega
      exact ⟨s.next, rfl, ready, h.next_nodup, h.next⟩

/-- With enough rounds the algorithm ends with nothing ready. -/
theorem run_layered (closed : ∀ e ∈ edges, e.1 ∈ vertices ∧ e.2 ∈ vertices)
    (arranged : ∀ l, (arrange l).Perm l) (fuel : Nat) :
    ∀ {s : Kahn ν} {waves : List (List ν)}, Layered edges vertices arrange s waves →
      vertices.length < fuel + s.ordered.length →
      ∃ s' waves', run (dependents edges) arrange fuel s waves = some (s', waves') ∧
        s'.next = [] ∧ Layered edges vertices arrange s' waves' := by
  induction fuel with
  | zero =>
    intro s waves h hfuel
    have := h.remaining
    omega
  | succ fuel ih =>
    intro s waves h hfuel
    unfold run
    by_cases hready : s.next = []
    · exact ⟨s, waves, by simp [hready], hready, h⟩
    · obtain ⟨s', hrun, hordered, h'⟩ := h.wave closed arranged hready
      have hgrown : s.ordered.length < s'.ordered.length := by
        rw [hordered, List.length_append, (arranged s.next).length_eq]
        have := List.length_pos_iff.mpr hready
        omega
      obtain ⟨t, waves', ht, hnone, hinv⟩ := ih h' (by omega)
      refine ⟨t, waves', ?_, hnone, hinv⟩
      simp only [List.isEmpty_iff, hready, if_false]
      rw [hrun]
      exact ht

/-- When nothing is ready any more, every vertex is done exactly if the graph has no cycle. -/
theorem Layered.remaining_eq_zero_iff {s : Kahn ν} {waves : List (List ν)}
    (h : Layered edges vertices arrange s waves)
    (closed : ∀ e ∈ edges, e.1 ∈ vertices ∧ e.2 ∈ vertices) (unique : vertices.Nodup)
    (stopped : s.next = []) : s.remaining = 0 ↔ edges.Acyclic := by
  have hsub : s.ordered ⊆ vertices := fun v hv => ((h.done v).mp hv).1
  have hlen := h.remaining
  constructor
  · intro hzero v hcycle
    have hv : v ∈ vertices := by
      obtain ⟨u, -, hu⟩ := Relation.TransGen.tail'_iff.mp hcycle
      exact (closed _ hu).2
    have hperm : s.ordered.Perm vertices :=
      (List.subperm_of_subset h.nodup hsub).perm_of_length_le (by omega)
    exact ((h.done v).mp (hperm.mem_iff.mpr hv)).2 (Edges.hasChain_of_cycle hcycle _)
  · intro acyclic
    -- no wave is next, so a chain of this length extends for ever
    have longer (m : Nat) : ∀ v ∈ vertices, edges.HasChain waves.length v →
        edges.HasChain (waves.length + m) v := by
      induction m with
      | zero => exact fun v _ hchain => hchain
      | succ m ih =>
        intro v hv hchain
        have hnot : ¬ edges.LongestChain waves.length v := by
          intro hlongest
          have := (h.next v).mpr ⟨hv, hlongest⟩
          rw [stopped] at this
          cases this
        rw [Edges.longestChain_iff, not_and, not_not] at hnot
        obtain ⟨u, hu, hchain⟩ := hnot hchain
        exact ⟨u, hu, ih u (closed _ hu).1 hchain⟩
    have hall : vertices ⊆ s.ordered := by
      intro v hv
      rw [h.done]
      refine ⟨hv, fun hchain => ?_⟩
      obtain ⟨k, hk⟩ := acyclic.exists_not_hasChain v
      exact hk ((longer k v hv hchain).mono (by omega))
    have := (List.subperm_of_subset unique hall).length_le
    omega

end Run

end Kahn

end GpuiAgent.Framework
