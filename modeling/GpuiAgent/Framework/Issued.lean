import Mathlib.Data.List.Perm.Subperm
import Mathlib.Data.List.Range

namespace GpuiAgent.Framework

/-- The numbers below `n` were given out in order, and each was either kept or refused. -/
structure Issued (n : Nat) (kept refused : List Nat) : Prop where
  all : (kept ++ refused).Perm (List.range n)
  ordered : kept.Pairwise (· < ·)

namespace Issued

variable {n k : Nat} {kept refused : List Nat}

theorem start : Issued 0 [] [] := ⟨.refl _, .nil⟩

theorem lt (h : Issued n kept refused) (hk : k ∈ kept) : k < n :=
  List.mem_range.mp (h.all.subset (List.mem_append_left _ hk))

theorem cases (h : Issued n kept refused) (hk : k < n) : k ∈ kept ∨ k ∈ refused :=
  List.mem_append.mp (h.all.symm.subset (List.mem_range.mpr hk))

theorem nodup (h : Issued n kept refused) : (kept ++ refused).Nodup :=
  h.all.nodup_iff.mpr List.nodup_range

theorem not_refused (h : Issued n kept refused) (hk : k ∈ kept) : k ∉ refused :=
  fun hr => (List.nodup_append.mp h.nodup).2.2 k hk k hr rfl

theorem keep (h : Issued n kept refused) : Issued (n + 1) (kept ++ [n]) refused where
  all := by
    rw [List.range_succ, List.append_assoc]
    refine (List.perm_append_comm.append_left kept).trans ?_
    rw [← List.append_assoc]
    exact h.all.append_right [n]
  ordered := by
    rw [List.pairwise_append]
    refine ⟨h.ordered, List.pairwise_singleton _ _, fun a ha b hb => ?_⟩
    rw [List.mem_singleton.mp hb]
    exact h.lt ha

theorem refuse (h : Issued n kept refused) : Issued (n + 1) kept (refused ++ [n]) where
  all := by
    rw [List.range_succ, ← List.append_assoc]
    exact h.all.append_right [n]
  ordered := h.ordered

end Issued

section Filter

variable {α : Type*} {key : α → Nat} {xs : List α} {x : α}

/-- With different keys, the entries with the key of a member are that member. -/
theorem filter_key_eq (h : (xs.map key).Nodup) (hx : x ∈ xs) :
    (xs.filter fun y => key y = key x) = [x] := by
  induction xs with
  | nil => cases hx
  | cons y ys ih =>
    obtain ⟨hy, hys⟩ := List.nodup_cons.mp h
    rcases List.mem_cons.mp hx with rfl | hx
    · have hrest : (ys.filter fun y => key y = key x) = [] := by
        rw [List.filter_eq_nil_iff]
        intro z hz he
        exact hy (of_decide_eq_true he ▸ List.mem_map_of_mem hz)
      rw [List.filter_cons, if_pos (decide_eq_true rfl), hrest]
    · have hne : key y ≠ key x := fun he => hy (he ▸ List.mem_map_of_mem hx)
      rw [List.filter_cons_of_neg (by simpa using hne)]
      exact ih hys hx

theorem length_filter_key_le (h : (xs.map key).Nodup) (k : Nat) :
    (xs.filter fun y => key y = k).length ≤ 1 := by
  by_cases hk : ∃ x ∈ xs, key x = k
  · obtain ⟨x, hx, rfl⟩ := hk
    rw [filter_key_eq h hx]
    exact le_rfl
  · have hnone : (xs.filter fun y => key y = k) = [] := by
      rw [List.filter_eq_nil_iff]
      exact fun x hx he => hk ⟨x, hx, of_decide_eq_true he⟩
    rw [hnone]
    exact Nat.zero_le _

end Filter

end GpuiAgent.Framework
