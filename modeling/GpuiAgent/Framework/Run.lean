import Mathlib.Data.List.Infix

namespace GpuiAgent.Framework

section Prefix

variable {ι σ : Type*} {ops : List ι}

/-- Induction over the prefixes of a run, in the order they are reached. -/
theorem prefix_induction {P : List ι → Prop} (nil : P [])
    (snoc : ∀ pre op, pre ++ [op] <+: ops → P pre → P (pre ++ [op])) (pre : List ι)
    (h : pre <+: ops) : P pre := by
  induction pre using List.reverseRecOn with
  | nil => exact nil
  | append_singleton pre op ih => exact snoc pre op h (ih ((List.prefix_append pre [op]).trans h))

/-- A preorder that every step of a run respects relates any earlier state to any later one. -/
theorem prefix_rel {R : σ → σ → Prop} (refl : ∀ s, R s s) (trans : ∀ s t u, R s t → R t u → R s u)
    {f : List ι → σ} (step : ∀ pre op, pre ++ [op] <+: ops → R (f pre) (f (pre ++ [op])))
    (pre suf : List ι) (h : pre ++ suf <+: ops) : R (f pre) (f (pre ++ suf)) := by
  induction suf using List.reverseRecOn with
  | nil => simpa using refl (f pre)
  | append_singleton suf op ih =>
    rw [← List.append_assoc] at h ⊢
    exact trans _ _ _ (ih ((List.prefix_append _ [op]).trans h)) (step _ op h)

/-- Every step of a run, by its position. -/
theorem forall_prefix_of_getElem {P : List ι → ι → Prop}
    (h : ∀ i (hi : i < ops.length), P (ops.take i) ops[i]) (pre : List ι) (op : ι)
    (hpre : pre ++ [op] <+: ops) : P pre op := by
  obtain ⟨suf, rfl⟩ := hpre
  have := h pre.length (by simp)
  simpa using this

end Prefix

/-- The loop whose rounds are `round`, which is `none` where its guard fails, started in one state
comes to an end in the other. -/
inductive Ends {σ : Type*} (round : σ → Option σ) : σ → σ → Prop where
  | stop {s : σ} : round s = none → Ends round s s
  | next {s s' t : σ} : round s = some s' → Ends round s' t → Ends round s t

end GpuiAgent.Framework
