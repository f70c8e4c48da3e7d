import GpuiAgent.Framework.Run
import Mathlib.Data.List.Forall2
import Mathlib.Data.List.Pairwise

namespace GpuiAgent.Framework

section Chronicle

variable {ι σ α : Type*} (step : σ → ι → σ) (start : σ) (log : σ → List α)
  (holds : σ → σ → α → Prop)

/-- The entries of a log hold of steps of the run, in the order of these steps: `moments` are their
places in the run. -/
def Chronicled (ops : List ι) : Prop :=
  ∃ moments : List Nat, moments.Pairwise (· ≤ ·) ∧ List.Forall₂ (fun m a => m < ops.length ∧
    holds ((ops.take m).foldl step start) ((ops.take (m + 1)).foldl step start) a)
    moments (log (ops.foldl step start))

variable {step start log holds}

/-- A log is chronicled if each step adds only entries that hold of it. -/
theorem chronicled_run (init : log start = [])
    (next : ∀ s op, ∃ new, log (step s op) = log s ++ new ∧ ∀ a ∈ new, holds s (step s op) a)
    (ops : List ι) : Chronicled step start log holds ops := by
  induction ops using List.reverseRecOn with
  | nil => exact ⟨[], List.Pairwise.nil, by rw [List.foldl_nil, init]; exact .nil⟩
  | append_singleton ops op ih =>
    obtain ⟨moments, hsorted, hentries⟩ := ih
    obtain ⟨new, hlog, hnew⟩ := next (ops.foldl step start) op
    refine ⟨moments ++ new.map fun _ => ops.length, ?_, ?_⟩
    · rw [List.pairwise_append]
      refine ⟨hsorted, ?_, ?_⟩
      · rw [List.pairwise_map]
        exact List.pairwise_of_forall fun _ _ => le_rfl
      · intro m hm m' hm'
        obtain ⟨_, -, rfl⟩ := List.mem_map.mp hm'
        obtain ⟨i, hi, rfl⟩ := List.getElem_of_mem hm
        have hlt := (List.forall₂_iff_get.mp hentries).2 i hi
          ((List.Forall₂.length_eq hentries) ▸ hi)
        exact hlt.1.le
    · rw [List.foldl_append, List.foldl_cons, List.foldl_nil, hlog]
      refine List.rel_append ?_ ?_
      · refine hentries.imp fun m a h => ?_
        obtain ⟨hlt, ha⟩ := h
        have hlen : m < (ops ++ [op]).length := by
          rw [List.length_append]
          omega
        rw [List.take_append_of_le_length hlt.le, List.take_append_of_le_length hlt]
        exact ⟨hlen, ha⟩
      · rw [List.forall₂_map_left_iff, List.forall₂_same]
        intro a ha
        have hlen : ops.length < (ops ++ [op]).length := by simp
        have htake : (ops ++ [op]).take (ops.length + 1) = ops ++ [op] :=
          List.take_of_length_le (by simp)
        rw [htake, List.take_left, List.foldl_append]
        exact ⟨hlen, hnew a ha⟩

end Chronicle

end GpuiAgent.Framework
