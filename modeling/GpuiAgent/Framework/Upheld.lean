import GpuiAgent.Framework.RoseTree

namespace GpuiAgent.Framework

open RoseTree

namespace Forest

variable {α : Type*} (p : α → Bool)

mutual
/-- The labels that satisfy `p` with all their ancestors, each with its ancestors, nearest first. A
subtree whose root fails is left out. -/
def upheldOf (path : List α) : RoseTree α → List (List α × α)
  | node a cs => if p a then (path, a) :: upheld (a :: path) cs else []
def upheld (path : List α) : Forest α → List (List α × α)
  | [] => []
  | t :: ts => upheldOf path t ++ upheld path ts
end

theorem upheld_cons (path : List α) (a : α) (cs ts : Forest α) :
    upheld p path (node a cs :: ts) =
      (if p a then (path, a) :: upheld p (a :: path) cs else []) ++ upheld p path ts := rfl

/-- A label satisfies `p`, and so do its ancestors. -/
def Upheld (row : List α × α) : Bool := p row.2 && row.1.all p

variable {p}

theorem upheld_iff {row : List α × α} :
    Upheld p row = true ↔ p row.2 = true ∧ ∀ b ∈ row.1, p b = true := by
  rw [Upheld, Bool.and_eq_true, List.all_eq_true]

/-- Passing a flag down the tree finds the same labels as asking each label's ancestors. -/
theorem upheld_eq_filter (F : Forest α) : ∀ {path : List α}, (∀ b ∈ path, p b = true) →
    upheld p path F = (rows id path F).filter (Upheld p) := by
  induction F using induction with
  | nil => exact fun _ => rfl
  | cons a cs ts hc ht =>
    intro path hpath
    rw [upheld_cons, rows_cons, List.filter_cons, List.filter_append, ht hpath]
    cases ha : p a with
    | true =>
      have hpath' : ∀ b ∈ a :: path, p b = true := List.forall_mem_cons.mpr ⟨ha, hpath⟩
      have hrow : Upheld p (path, a) = true := upheld_iff.mpr ⟨ha, hpath⟩
      rw [if_pos rfl, if_pos hrow, hc hpath']
      rfl
    | false =>
      have hrow : ¬ Upheld p (path, a) = true := by simp [upheld_iff, ha]
      have hbelow : (rows id (id a :: path) cs).filter (Upheld p) = [] := by
        rw [List.filter_eq_nil_iff]
        intro row hmem hup
        have hin : a ∈ row.1 := subset_path hmem List.mem_cons_self
        have hfalse := (upheld_iff.mp hup).2 a hin
        rw [ha] at hfalse
        cases hfalse
      rw [if_neg (by simp), if_neg hrow, hbelow]

end Forest

end GpuiAgent.Framework
