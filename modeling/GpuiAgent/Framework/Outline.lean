import GpuiAgent.Framework.Upheld

namespace GpuiAgent.Framework.Forest

open RoseTree

variable {α : Type*}

/-- The depth of every node in pre-order. -/
def depths (d : Nat) (F : Forest α) : List Nat := (rows id [] F).map fun row => d + row.1.length

theorem map_depth_rows (F : Forest α) (f : Nat → Nat) : ∀ path : List α,
    (rows id path F).map (fun row => f row.1.length) =
      (rows id [] F).map fun row => f (path.length + row.1.length) := by
  induction F using induction generalizing f with
  | nil => exact fun _ => rfl
  | cons a cs ts hc ht =>
    intro path
    rw [rows_cons, rows_cons, List.map_cons, List.map_cons, List.map_append, List.map_append,
      hc f (id a :: path), ht f path, hc (fun n => f (path.length + n)) [id a]]
    have hlen (n : Nat) : path.length + 1 + n = path.length + (1 + n) := Nat.add_assoc ..
    simp only [List.length_cons, List.length_nil, Nat.add_zero, Nat.zero_add, hlen]

@[simp] theorem depths_nil (d : Nat) : depths d ([] : Forest α) = [] := rfl

theorem depths_cons (d : Nat) (a : α) (cs ts : Forest α) :
    depths d (node a cs :: ts) = d :: (depths (d + 1) cs ++ depths d ts) := by
  have hlen (n : Nat) : d + (1 + n) = d + 1 + n := (Nat.add_assoc ..).symm
  rw [depths, rows_cons, List.map_cons, List.map_append, map_depth_rows cs (fun n => d + n)]
  simp only [List.length_cons, List.length_nil, Nat.zero_add, hlen, Nat.add_zero, depths]

theorem le_of_mem_depths {d n : Nat} {F : Forest α} (h : n ∈ depths d F) : d ≤ n := by
  obtain ⟨row, -, rfl⟩ := List.mem_map.mp h
  exact Nat.le_add_right d row.1.length

/-- What is deeper than `d` at the start of an outline belongs to the first node. -/
theorem takeWhile_depths (d : Nat) (cs ts : Forest α) :
    (depths (d + 1) cs ++ depths d ts).takeWhile (d < ·) = depths (d + 1) cs := by
  have hbelow : ∀ n ∈ depths (d + 1) cs, decide (d < n) = true := fun n hn =>
    decide_eq_true (le_of_mem_depths hn)
  rw [List.takeWhile_append_of_pos hbelow]
  cases ts with
  | nil => simp
  | cons t ts =>
    obtain ⟨a, cs'⟩ := t
    rw [depths_cons, List.takeWhile_cons_of_neg (by simp), List.append_nil]

/-- The shape of a forest is read back from its depths. -/
theorem depths_injective {F G : Forest Unit} {d : Nat} (h : depths d F = depths d G) : F = G := by
  induction F using induction generalizing d G with
  | nil =>
    cases G with
    | nil => rfl
    | cons t G =>
      obtain ⟨a, cs⟩ := t
      rw [depths_cons] at h
      cases h
  | cons a cs ts hc ht =>
    cases G with
    | nil =>
      rw [depths_cons] at h
      cases h
    | cons t G =>
      obtain ⟨b, cs'⟩ := t
      rw [depths_cons, depths_cons] at h
      have htail := (List.cons.inj h).2
      have hbelow := congrArg (List.takeWhile (d < ·)) htail
      rw [takeWhile_depths, takeWhile_depths] at hbelow
      rw [hbelow] at htail
      rw [hc hbelow, ht (List.append_cancel_left htail)]

section Pruned

variable (p : α → Bool)

mutual
/-- The forest without the subtrees whose root fails `p`. -/
def prunedOf : RoseTree α → Forest α
  | node a cs => if p a then [node a (pruned cs)] else []
def pruned : Forest α → Forest α
  | [] => []
  | t :: ts => prunedOf t ++ pruned ts
end

theorem pruned_cons (a : α) (cs ts : Forest α) :
    pruned p (node a cs :: ts) = (if p a then [node a (pruned p cs)] else []) ++ pruned p ts := rfl

theorem rows_pruned (F : Forest α) : ∀ path, rows id path (pruned p F) = upheld p path F := by
  induction F using induction with
  | nil => exact fun _ => rfl
  | cons a cs ts hc ht =>
    intro path
    rw [pruned_cons, upheld_cons, rows_append, ht path]
    split_ifs
    · rw [rows_cons, hc (id a :: path), rows_nil, List.append_nil]
      rfl
    · rfl

end Pruned

/-- A forest without its labels. -/
def shape (F : Forest α) : Forest Unit := map (fun _ => ()) F

theorem depths_shape (F : Forest α) : ∀ d, depths d (shape F) = depths d F := by
  induction F using induction with
  | nil => exact fun _ => rfl
  | cons a cs ts hc ht =>
    intro d
    have hshape : shape (node a cs :: ts) = node () (shape cs) :: shape ts := rfl
    rw [hshape, depths_cons, depths_cons, hc, ht]

end GpuiAgent.Framework.Forest
