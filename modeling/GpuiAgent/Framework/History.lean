import GpuiAgent.Framework.Run

namespace GpuiAgent.Framework

section History

variable {ι σ : Type*} (step : σ → ι → σ) (start : σ) (kind : σ → ι → Prop)

/-- A step of the kind was taken in a run. -/
def Happened (ops : List ι) : Prop :=
  ∃ pre op, pre ++ [op] <+: ops ∧ kind (pre.foldl step start) op

variable {step start kind}

theorem not_happened_nil : ¬ Happened step start kind [] := by
  intro ⟨pre, op, hpre, _⟩
  rw [List.prefix_nil] at hpre
  simp at hpre

theorem happened_snoc {ops : List ι} {op : ι} :
    Happened step start kind (ops ++ [op]) ↔
      Happened step start kind ops ∨ kind (ops.foldl step start) op := by
  constructor
  · intro ⟨pre, op', hpre, hkind⟩
    rcases List.prefix_concat_iff.mp hpre with heq | hpre
    · obtain ⟨rfl, hop⟩ := List.append_inj' heq rfl
      obtain rfl := List.singleton_inj.mp hop
      exact Or.inr hkind
    · exact Or.inl ⟨pre, op', hpre, hkind⟩
  · rintro (⟨pre, op', hpre, hkind⟩ | hkind)
    · exact ⟨pre, op', hpre.trans (List.prefix_append ops [op]), hkind⟩
    · exact ⟨ops, op, List.prefix_refl _, hkind⟩

/-- An invariant that may speak of what has happened holds of every state of a run whose steps are
allowed. -/
theorem history_induction {Inv : Prop → σ → Prop} {allowed : σ → ι → Prop} {ops : List ι}
    (init : Inv False start)
    (next : ∀ A s op, Inv A s → allowed s op → Inv (A ∨ kind s op) (step s op))
    (hallowed : ∀ pre op, pre ++ [op] <+: ops → allowed (pre.foldl step start) op)
    (pre : List ι) (hpre : pre <+: ops) :
    Inv (Happened step start kind pre) (pre.foldl step start) := by
  refine prefix_induction (P := fun pre => Inv (Happened step start kind pre)
    (pre.foldl step start)) ?_ ?_ pre hpre
  · have hnil : Happened step start kind [] = False := eq_false not_happened_nil
    rw [hnil]
    exact init
  · intro pre op hop ih
    rw [happened_snoc, List.foldl_append]
    exact next _ _ op ih (hallowed pre op hop)

end History

end GpuiAgent.Framework
