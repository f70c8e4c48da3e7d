import Mathlib.Data.List.TakeDrop

namespace GpuiAgent.Framework

variable {α : Type*}

/-- `fuel` bounds the number of chunks. -/
def chunksFrom (n : Nat) : Nat → List α → List (List α)
  | 0, _ => []
  | fuel + 1, l => if l.isEmpty then [] else l.take n :: chunksFrom n fuel (l.drop n)

/-- Consecutive pieces of length `n`, the last one possibly shorter. -/
def chunks (n : Nat) (l : List α) : List (List α) := chunksFrom n l.length l

theorem chunksFrom_flatten {n : Nat} (hn : 0 < n) : ∀ (fuel : Nat) (l : List α),
    l.length ≤ fuel → (chunksFrom n fuel l).flatten = l := by
  intro fuel
  induction fuel with
  | zero =>
    intro l hl
    obtain rfl : l = [] := List.length_eq_zero_iff.mp (Nat.le_zero.mp hl)
    rfl
  | succ fuel ih =>
    intro l hl
    rw [chunksFrom]
    split_ifs with he
    · rw [List.isEmpty_iff.mp he]
      rfl
    · have hpos : 0 < l.length := List.length_pos_iff.mpr (by simpa using he)
      rw [List.flatten_cons, ih (l.drop n) (by rw [List.length_drop]; omega), List.take_append_drop]

theorem chunks_flatten {n : Nat} (hn : 0 < n) (l : List α) : (chunks n l).flatten = l :=
  chunksFrom_flatten hn _ l (Nat.le_refl _)

theorem length_chunks_le (n : Nat) (l : List α) : (chunks n l).length ≤ l.length := by
  have go (fuel : Nat) : ∀ l : List α, (chunksFrom n fuel l).length ≤ fuel := by
    induction fuel with
    | zero => exact fun _ => Nat.le_refl _
    | succ fuel ih =>
      intro l
      rw [chunksFrom]
      split_ifs
      · exact Nat.zero_le _
      · exact Nat.succ_le_succ (ih _)
  exact go _ l

theorem chunks_of_length_le {n : Nat} {l : List α} (hne : l ≠ []) (hl : l.length ≤ n) :
    chunks n l = [l] := by
  obtain ⟨x, xs, rfl⟩ := List.exists_cons_of_ne_nil hne
  rw [chunks, List.length_cons, chunksFrom, if_neg (by simp), List.take_of_length_le hl,
    List.drop_eq_nil_of_le hl]
  cases xs.length <;> simp [chunksFrom]

theorem ne_nil_of_mem_chunks {n : Nat} (hn : 0 < n) {l c : List α} (h : c ∈ chunks n l) :
    c ≠ [] := by
  have go : ∀ (fuel : Nat) (l : List α), c ∈ chunksFrom n fuel l → c ≠ [] := by
    intro fuel
    induction fuel with
    | zero => simp [chunksFrom]
    | succ fuel ih =>
      intro l h
      rw [chunksFrom] at h
      split_ifs at h with he
      · simp at h
      · rcases List.mem_cons.mp h with rfl | h
        · simp only [ne_eq, List.take_eq_nil_iff, not_or]
          exact ⟨by omega, by simpa using he⟩
        · exact ih _ h
  exact go _ l h

end GpuiAgent.Framework
