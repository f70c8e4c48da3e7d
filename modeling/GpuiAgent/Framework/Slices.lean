import Mathlib.Order.Lattice

namespace GpuiAgent.Framework

variable {α : Type*} [LinearOrder α]

/-- Half-open slices, none of them empty, each beginning where the one before it ends. -/
def Abutting : α → List (α × α) → α → Prop
  | start, [], stop => start = stop
  | start, s :: rest, stop => s.1 = start ∧ s.1 < s.2 ∧ Abutting s.2 rest stop

namespace Abutting

variable {start stop next : α} {slices : List (α × α)}

theorem snoc (h : Abutting start slices stop) (hnext : stop < next) :
    Abutting start (slices ++ [(stop, next)]) next := by
  induction slices generalizing start with
  | nil => exact ⟨h.symm, hnext, rfl⟩
  | cons s rest ih => exact ⟨h.1, h.2.1, ih h.2.2⟩

theorem le (h : Abutting start slices stop) : start ≤ stop := by
  induction slices generalizing start with
  | nil => exact le_of_eq h
  | cons s rest ih =>
    obtain ⟨rfl, hlt, hrest⟩ := h
    exact hlt.le.trans (ih hrest)

/-- The slices cover what lies between the two ends. -/
theorem exists_mem_iff (h : Abutting start slices stop) (x : α) :
    (∃ s ∈ slices, s.1 ≤ x ∧ x < s.2) ↔ start ≤ x ∧ x < stop := by
  induction slices generalizing start with
  | nil =>
    have hends : start = stop := h
    simp only [List.not_mem_nil, false_and, exists_false, false_iff, hends]
    exact fun hx => absurd hx.1 (not_le_of_gt hx.2)
  | cons s rest ih =>
    obtain ⟨rfl, hlt, hrest⟩ := h
    have hstop := hrest.le
    simp only [List.mem_cons, exists_eq_or_imp, ih hrest]
    constructor
    · intro hx
      obtain hx | hx := hx
      · exact ⟨hx.1, hx.2.trans_le hstop⟩
      · exact ⟨hlt.le.trans hx.1, hx.2⟩
    · intro hx
      by_cases hs : x < s.2
      · exact .inl ⟨hx.1, hs⟩
      · exact .inr ⟨le_of_not_gt hs, hx.2⟩

theorem start_le (h : Abutting start slices stop) {s : α × α} (hs : s ∈ slices) : start ≤ s.1 := by
  induction slices generalizing start with
  | nil => exact absurd hs List.not_mem_nil
  | cons t rest ih =>
    obtain rfl | hs := List.mem_cons.mp hs
    · exact h.1.ge
    · exact h.1.ge.trans (h.2.1.le.trans (ih h.2.2 hs))

/-- The slices are in order and do not overlap. -/
theorem pairwise (h : Abutting start slices stop) : slices.Pairwise fun s t => s.2 ≤ t.1 := by
  induction slices generalizing start with
  | nil => exact .nil
  | cons s rest ih => exact .cons (fun t ht => h.2.2.start_le ht) (ih h.2.2)

end Abutting

end GpuiAgent.Framework
