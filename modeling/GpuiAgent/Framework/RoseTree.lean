import Mathlib.Data.List.Nodup
import Mathlib.Data.List.Perm.Basic

namespace GpuiAgent.Framework

/-- A finitely branching tree; a forest is a list of them. -/
inductive RoseTree (α : Type*) where
  | node (label : α) (children : List (RoseTree α))

namespace RoseTree

variable {α κ : Type*}

def label : RoseTree α → α
  | node a _ => a

def children : RoseTree α → List (RoseTree α)
  | node _ cs => cs

@[simp] theorem label_node (a : α) (cs : List (RoseTree α)) : (node a cs).label = a := rfl
@[simp] theorem children_node (a : α) (cs : List (RoseTree α)) : (node a cs).children = cs := rfl

end RoseTree

open RoseTree

abbrev Forest (α : Type*) := List (RoseTree α)

namespace Forest

variable {α κ : Type*}

/-- Induction on a forest: a head tree is split into its label and its children. -/
theorem induction {P : Forest α → Prop} (nil : P [])
    (cons : ∀ a cs ts, P cs → P ts → P (node a cs :: ts)) (F : Forest α) : P F :=
  RoseTree.rec_1 (motive_1 := fun t => P t.children) (motive_2 := P)
    (fun _ _ h => h) nil
    (fun t ts hc ht => match t, hc with | node a cs, hc => cons a cs ts hc ht) F

mutual
/-- Pre-order list of a tree's subtrees, each with its ancestors' keys, nearest first. -/
def subtreesOf (key : α → κ) (path : List κ) : RoseTree α → List (List κ × RoseTree α)
  | node a cs => (path, node a cs) :: subtrees key (key a :: path) cs
def subtrees (key : α → κ) (path : List κ) : Forest α → List (List κ × RoseTree α)
  | [] => []
  | t :: ts => subtreesOf key path t ++ subtrees key path ts
end

/-- Pre-order list of the labels of a forest, each with its ancestors' keys. -/
def rows (key : α → κ) (path : List κ) (F : Forest α) : List (List κ × α) :=
  (subtrees key path F).map fun r => (r.1, r.2.label)

def keys (key : α → κ) (F : Forest α) : List κ :=
  (rows key [] F).map fun r => key r.2

section Rows

variable (key : α → κ)

@[simp] theorem subtrees_nil (p : List κ) : subtrees key p ([] : Forest α) = [] := rfl

@[simp] theorem subtrees_cons (p : List κ) (a : α) (cs ts : Forest α) :
    subtrees key p (node a cs :: ts) =
      (p, node a cs) :: (subtrees key (key a :: p) cs ++ subtrees key p ts) := rfl

@[simp] theorem rows_nil (p : List κ) : rows key p ([] : Forest α) = [] := rfl

@[simp] theorem rows_cons (p : List κ) (a : α) (cs ts : Forest α) :
    rows key p (node a cs :: ts) = (p, a) :: (rows key (key a :: p) cs ++ rows key p ts) := by
  simp [rows]

theorem rows_append (p : List κ) (F G : Forest α) :
    rows key p (F ++ G) = rows key p F ++ rows key p G := by
  induction F with
  | nil => rfl
  | cons t ts ih =>
    obtain ⟨a, cs⟩ := t
    simp [ih]

/-- The labels listed do not depend on the path a forest is placed under. -/
theorem map_snd_rows (F : Forest α) : ∀ p q : List κ,
    (rows key p F).map Prod.snd = (rows key q F).map Prod.snd := by
  induction F using induction with
  | nil => simp
  | cons a cs ts hc ht =>
    intro p q
    simp [hc (key a :: p) (key a :: q), ht p q]

theorem map_key_rows (p : List κ) (F : Forest α) :
    (rows key p F).map (fun r => key r.2) = keys key F := by
  have h := congrArg (List.map key) (map_snd_rows key F p [])
  simpa [keys, List.map_map, Function.comp_def] using h

@[simp] theorem keys_nil : keys key ([] : Forest α) = [] := rfl

@[simp] theorem keys_cons (a : α) (cs ts : Forest α) :
    keys key (node a cs :: ts) = key a :: (keys key cs ++ keys key ts) := by
  simp only [← map_key_rows key [] (node a cs :: ts), rows_cons, List.map_cons, List.map_append,
    map_key_rows]

/-- The labels of a forest in pre-order. -/
def labels (F : Forest α) : List α := (rows (fun _ => ()) [] F).map Prod.snd

@[simp] theorem labels_nil : labels ([] : Forest α) = [] := rfl

@[simp] theorem labels_cons (a : α) (cs ts : Forest α) :
    labels (node a cs :: ts) = a :: (labels cs ++ labels ts) := by
  simp only [labels, rows_cons, List.map_cons, List.map_append]
  rw [map_snd_rows (fun _ => ()) cs [()] []]

theorem map_snd_rows_eq_labels (p : List κ) (F : Forest α) :
    (rows key p F).map Prod.snd = labels F := by
  induction F using induction generalizing p with
  | nil => rfl
  | cons a cs ts hc ht => simp [hc (key a :: p), ht p]

variable {key}

theorem key_mem_of_mem_rows {p q : List κ} {b : α} {F : Forest α} (h : (q, b) ∈ rows key p F) :
    key b ∈ keys key F := by
  rw [← map_key_rows key p F]
  exact List.mem_map.mpr ⟨(q, b), h, rfl⟩

theorem exists_row_of_key_mem {k : κ} {F : Forest α} (p : List κ) (h : k ∈ keys key F) :
    ∃ q b, (q, b) ∈ rows key p F ∧ key b = k := by
  rw [← map_key_rows key p F] at h
  obtain ⟨⟨q, b⟩, hm, he⟩ := List.mem_map.mp h
  exact ⟨q, b, hm, he⟩

theorem mem_rows_of_mem_subtrees {p q : List κ} {t : RoseTree α} {F : Forest α}
    (h : (q, t) ∈ subtrees key p F) : (q, t.label) ∈ rows key p F :=
  List.mem_map.mpr ⟨(q, t), h, rfl⟩

theorem exists_subtree_of_mem_rows {p q : List κ} {b : α} {F : Forest α}
    (h : (q, b) ∈ rows key p F) : ∃ t, (q, t) ∈ subtrees key p F ∧ t.label = b := by
  obtain ⟨⟨q', t⟩, hm, he⟩ := List.mem_map.mp h
  simp only [Prod.mk.injEq] at he
  exact ⟨t, he.1 ▸ hm, he.2⟩

/-- Every key of a row's path is a node of the forest or of the path it is placed under. -/
theorem path_subset {F : Forest α} : ∀ {p q : List κ} {b : α}, (q, b) ∈ rows key p F →
    ∀ x ∈ q, x ∈ p ∨ x ∈ keys key F := by
  induction F using induction with
  | nil => simp
  | cons a cs ts hc ht =>
    intro p q b h x hx
    simp only [rows_cons, List.mem_cons, List.mem_append, Prod.mk.injEq] at h
    rcases h with ⟨rfl, rfl⟩ | h | h
    · exact Or.inl hx
    · rcases hc h x hx with hp | hk
      · rcases List.mem_cons.mp hp with rfl | hp
        · simp
        · exact Or.inl hp
      · simp [hk]
    · rcases ht h x hx with hp | hk
      · exact Or.inl hp
      · simp [hk]

/-- The parent of a row is itself a row, under the rest of the path. -/
theorem parent_mem_rows {F : Forest α} : ∀ {p q : List κ} {x : κ} {b : α},
    (x :: q, b) ∈ rows key p F → x :: q = p ∨ ∃ c, (q, c) ∈ rows key p F ∧ key c = x := by
  induction F using induction with
  | nil => simp
  | cons a cs ts hc ht =>
    intro p q x b h
    simp only [rows_cons, List.mem_cons, List.mem_append, Prod.mk.injEq] at h ⊢
    rcases h with ⟨h, -⟩ | h | h
    · exact Or.inl h
    · rcases hc h with he | ⟨c, hm, hk⟩
      · simp only [List.cons.injEq] at he
        exact Or.inr ⟨a, Or.inl ⟨he.2, rfl⟩, he.1.symm⟩
      · exact Or.inr ⟨c, Or.inr (Or.inl hm), hk⟩
    · rcases ht h with he | ⟨c, hm, hk⟩
      · exact Or.inl he
      · exact Or.inr ⟨c, Or.inr (Or.inr hm), hk⟩

/-- Every path in a forest ends in the path the forest is placed under. -/
theorem subset_path {F : Forest α} : ∀ {p q : List κ} {b : α}, (q, b) ∈ rows key p F → p ⊆ q := by
  induction F using induction with
  | nil => simp
  | cons a cs ts hc ht =>
    intro p q b h
    simp only [rows_cons, List.mem_cons, List.mem_append, Prod.mk.injEq] at h
    rcases h with ⟨rfl, -⟩ | h | h
    · exact List.Subset.refl _
    · exact fun x hx => hc h (List.mem_cons_of_mem _ hx)
    · exact ht h

/-- The rows of a subtree are among the rows of the forest. -/
theorem rows_subtree_sublist {F : Forest α} : ∀ {p q : List κ} {t : RoseTree α},
    (q, t) ∈ subtrees key p F → (rows key q [t]).Sublist (rows key p F) := by
  induction F using induction with
  | nil => simp
  | cons a cs ts hc ht =>
    intro p q t h
    simp only [subtrees_cons, List.mem_cons, List.mem_append, Prod.mk.injEq] at h
    rw [rows_cons]
    rcases h with ⟨rfl, rfl⟩ | h | h
    · simp
    · exact ((hc h).trans (List.sublist_append_left _ _)).cons _
    · exact ((ht h).trans (List.sublist_append_right _ _)).cons _

/-- A row whose path passes through the root of a subtree lies in that subtree. -/
theorem mem_rows_subtree {F : Forest α} : ∀ {p q s : List κ} {t : RoseTree α} {b : α},
    (keys key F).Nodup → key t.label ∉ p → (q, t) ∈ subtrees key p F →
    (s, b) ∈ rows key p F → key t.label ∈ s → (s, b) ∈ rows key q [t] := by
  induction F using induction with
  | nil => simp
  | cons a cs ts hc ht =>
    intro p q s t b hn hp hsub hrow hs
    simp only [keys_cons, List.nodup_cons, List.nodup_append, List.mem_append, not_or] at hn
    obtain ⟨⟨hac, hat⟩, hnc, hnt, hdis⟩ := hn
    simp only [subtrees_cons, List.mem_cons, List.mem_append, Prod.mk.injEq] at hsub
    simp only [rows_cons, List.mem_cons, List.mem_append, Prod.mk.injEq] at hrow
    rcases hrow with ⟨rfl, rfl⟩ | hrow | hrow
    · exact absurd hs hp
    · rcases hsub with ⟨rfl, rfl⟩ | hsub | hsub
      · simpa using Or.inr hrow
      · have hk : key t.label ∈ keys key cs := key_mem_of_mem_rows (mem_rows_of_mem_subtrees hsub)
        refine hc hnc ?_ hsub hrow hs
        simp only [List.mem_cons, not_or]
        exact ⟨fun h => hac (h ▸ hk), hp⟩
      · have hk : key t.label ∈ keys key ts := key_mem_of_mem_rows (mem_rows_of_mem_subtrees hsub)
        rcases path_subset hrow _ hs with h | h
        · rcases List.mem_cons.mp h with h | h
          · exact absurd (h ▸ hk) hat
          · exact absurd h hp
        · exact absurd rfl (hdis _ h _ hk)
    · have hk : key t.label ∈ keys key ts :=
        (path_subset hrow _ hs).resolve_left hp
      rcases hsub with ⟨rfl, rfl⟩ | hsub | hsub
      · exact absurd hk hat
      · exact absurd rfl (hdis _ (key_mem_of_mem_rows (mem_rows_of_mem_subtrees hsub)) _ hk)
      · exact ht hnt hp hsub hrow hs

/-- With unique keys a key determines its row. -/
theorem row_unique {F : Forest α} {p q q' : List κ} {b b' : α} (hn : (keys key F).Nodup)
    (h : (q, b) ∈ rows key p F) (h' : (q', b') ∈ rows key p F) (hk : key b = key b') :
    q = q' ∧ b = b' := by
  rw [← map_key_rows key p F] at hn
  have := List.inj_on_of_nodup_map hn h h' hk
  simpa using this

/-- With unique keys a key determines its subtree. -/
theorem subtree_unique {F : Forest α} {p q q' : List κ} {t t' : RoseTree α}
    (hn : (keys key F).Nodup) (h : (q, t) ∈ subtrees key p F) (h' : (q', t') ∈ subtrees key p F)
    (hk : key t.label = key t'.label) : q = q' ∧ t = t' := by
  have hm : (subtrees key p F).map (fun r => key r.2.label) = keys key F := by
    rw [← map_key_rows key p F, rows, List.map_map]
    rfl
  rw [← hm] at hn
  have := List.inj_on_of_nodup_map hn h h' hk
  simpa using this

/-- Forests that agree on the parent of each key agree on all its ancestors. -/
theorem mem_rows_of_parents {F G : Forest α} (hn : (keys key G).Nodup)
    (hp : ∀ {q a}, (q, a) ∈ rows key [] F →
      ∃ q' b, (q', b) ∈ rows key [] G ∧ key b = key a ∧ q'.head? = q.head?)
    {q : List κ} {a : α} (h : (q, a) ∈ rows key [] F) :
    ∃ b, (q, b) ∈ rows key [] G ∧ key b = key a := by
  induction q generalizing a with
  | nil =>
    obtain ⟨q', b, hb, hk, hhead⟩ := hp h
    obtain rfl : q' = [] := by simpa using hhead
    exact ⟨b, hb, hk⟩
  | cons x q ih =>
    obtain ⟨q', b, hb, hk, hhead⟩ := hp h
    cases q' with
    | nil => simp at hhead
    | cons y q' =>
      obtain rfl : y = x := by simpa using hhead
      -- the parent is a row of both forests, under the same path by induction
      obtain ⟨c, hc, hcy⟩ := (parent_mem_rows h).resolve_left (by simp)
      obtain ⟨d, hd, hdc⟩ := ih hc
      obtain ⟨e, he, hey⟩ := (parent_mem_rows hb).resolve_left (by simp)
      obtain ⟨rfl, -⟩ := row_unique hn hd he (hdc.trans (hcy.trans hey.symm))
      exact ⟨b, hb, hk⟩

end Rows

section Map

variable {β : Type*}

mutual
/-- Change every label of a tree. -/
def mapOf (f : α → β) : RoseTree α → RoseTree β
  | node a cs => node (f a) (map f cs)
def map (f : α → β) : Forest α → Forest β
  | [] => []
  | t :: ts => mapOf f t :: map f ts
end

@[simp] theorem label_mapOf (f : α → β) (t : RoseTree α) : (mapOf f t).label = f t.label := by
  cases t with
  | node a cs => simp only [mapOf, label_node]

/-- Changing labels but not their keys changes no path. -/
theorem subtrees_map {f : α → β} {key : α → κ} {key' : β → κ} (h : ∀ a, key' (f a) = key a)
    (F : Forest α) : ∀ p, subtrees key' p (map f F) =
      (subtrees key p F).map fun r => (r.1, mapOf f r.2) := by
  induction F using Forest.induction with
  | nil => intro p; simp only [map, subtrees_nil, List.map_nil]
  | cons a cs ts ihc iht =>
    intro p
    simp only [map, mapOf, subtrees_cons, ihc, iht, h, List.map_cons, List.map_append]

end Map

end Forest

end GpuiAgent.Framework
