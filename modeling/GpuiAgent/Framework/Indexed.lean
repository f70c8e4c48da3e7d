import Mathlib.Algebra.Ring.Nat
import Mathlib.Data.List.Nodup
import Std.Data.TreeMap.Lemmas

namespace GpuiAgent.Framework

section Indexed

variable {κ β ρ : Type*} [Ord κ] [Std.TransOrd κ] [Std.LawfulEqOrd κ]

/-- A map filled from a list with distinct keys has exactly the list's entries, besides the entries
it started with under other keys. -/
theorem getElem?_foldl_insert {f : ρ → κ} {g : ρ → β} {l : List ρ} (hn : (l.map f).Nodup)
    (m : Std.TreeMap κ β) (k : κ) (v : β) :
    (l.foldl (fun m r => m.insert (f r) (g r)) m)[k]? = some v ↔
      (∃ r ∈ l, f r = k ∧ g r = v) ∨ k ∉ l.map f ∧ m[k]? = some v := by
  induction l generalizing m with
  | nil => simp
  | cons r l ih =>
    obtain ⟨hr, hl⟩ := List.nodup_cons.mp hn
    rw [List.foldl_cons, ih hl, Std.TreeMap.getElem?_insert]
    by_cases hk : f r = k
    · subst hk
      have hno : ∀ x ∈ l, f x ≠ f r := fun x hx e => hr (e ▸ List.mem_map_of_mem hx)
      have hnone : ¬ ∃ x ∈ l, f x = f r ∧ g x = v := fun ⟨x, hx, e, _⟩ => hno x hx e
      simp [hnone, hr]
    · have hk' : ¬ k = f r := fun e => hk e.symm
      simp [hk, hk']

/-- Maps with the same lookups list the same entries. -/
theorem toList_eq_of_getElem?_eq {m m' : Std.TreeMap κ β} (h : ∀ k : κ, m[k]? = m'[k]?) :
    m.toList = m'.toList := by
  have hnodup (m : Std.TreeMap κ β) : m.toList.Nodup := by
    refine (Std.TreeMap.distinct_keys_toList (t := m)).imp fun hne he => ?_
    simp [he] at hne
  have hperm : m.toList.Perm m'.toList := by
    refine (List.perm_ext_iff_of_nodup (hnodup m) (hnodup m')).mpr fun entry => ?_
    rw [Std.TreeMap.mem_toList_iff_getElem?_eq_some, Std.TreeMap.mem_toList_iff_getElem?_eq_some, h]
  exact (Std.TreeMap.Equiv.of_toList_perm hperm).toList_eq

end Indexed

/-- Where at most one element satisfies `p`, its place in the list does not matter. -/
theorem find?_eq_of_perm {α : Type*} {p : α → Bool} {l l' : List α} (h : l.Perm l')
    (hunique : ∀ a ∈ l, ∀ b ∈ l, p a = true → p b = true → a = b) : l.find? p = l'.find? p := by
  cases hfind : l'.find? p with
  | none =>
    rw [List.find?_eq_none] at hfind ⊢
    exact fun a ha => hfind a (h.mem_iff.mp ha)
  | some b =>
    have hb := h.mem_iff.mpr (List.mem_of_find?_eq_some hfind)
    have hpb := List.find?_some hfind
    obtain ⟨a, ha⟩ := Option.isSome_iff_exists.mp (List.find?_isSome.mpr ⟨b, hb, hpb⟩)
    rw [ha, hunique a (List.mem_of_find?_eq_some ha) b hb (List.find?_some ha) hpb]

theorem filter_key_eq_singleton {κ ρ : Type*} [DecidableEq κ] {f : ρ → κ} {l : List ρ}
    (hn : (l.map f).Nodup) {r : ρ} (hr : r ∈ l) : l.filter (fun x => f x = f r) = [r] := by
  induction l with
  | nil => simp at hr
  | cons x l ih =>
    obtain ⟨hx, hl⟩ := List.nodup_cons.mp hn
    rcases List.mem_cons.mp hr with rfl | hr
    · have hno : l.filter (fun x => f x = f r) = [] := by
        refine List.filter_eq_nil_iff.mpr fun y hy he => hx ?_
        exact of_decide_eq_true he ▸ List.mem_map_of_mem hy
      simp [hno]
    · have hne : f x ≠ f r := fun e => hx (e ▸ List.mem_map_of_mem hr)
      simp [hne, ih hl hr]

theorem sum_le_sum_of_forall₂ {α β : Type*} {R : α → β → Prop} {f : α → Nat} {g : β → Nat}
    (hle : ∀ a b, R a b → g b ≤ f a) {as : List α} {bs : List β} (h : List.Forall₂ R as bs) :
    (bs.map g).sum ≤ (as.map f).sum := by
  induction h with
  | nil => exact Nat.le_refl _
  | cons hab _ ih =>
    have hpart := hle _ _ hab
    simp only [List.map_cons, List.sum_cons]
    omega

/-- A sum of parts, each at most as large as what it stands for, is whole when every part is. -/
theorem sum_eq_sum_iff {α β : Type*} {R : α → β → Prop} {f : α → Nat} {g : β → Nat} {P : α → Prop}
    (hle : ∀ a b, R a b → g b ≤ f a) (hwhole : ∀ a b, R a b → (g b = f a ↔ P a)) {as : List α}
    {bs : List β} (h : List.Forall₂ R as bs) :
    (bs.map g).sum = (as.map f).sum ↔ ∀ a ∈ as, P a := by
  induction h with
  | nil => simp
  | @cons a b as bs hab hrest ih =>
    have hpart := hle a b hab
    have hothers := sum_le_sum_of_forall₂ hle hrest
    rw [List.forall_mem_cons, ← hwhole a b hab, ← ih]
    simp only [List.map_cons, List.sum_cons]
    omega

theorem getElem?_extend {α : Type*} {l l' : List α} (h : l <+: l') {i : Nat} {a : α}
    (ha : l[i]? = some a) : l'[i]? = some a := by
  obtain ⟨t, rfl⟩ := h
  rwa [List.getElem?_append_left (List.getElem?_eq_some_iff.mp ha).1]

theorem mem_of_lookup {α β : Type} [BEq α] [LawfulBEq α] {l : List (α × β)} {k : α} {b : β}
    (h : l.lookup k = some b) : (k, b) ∈ l := by
  obtain ⟨l₁, l₂, rfl, _⟩ := List.lookup_eq_some_iff.mp h
  exact List.mem_append_right _ List.mem_cons_self

theorem lookup_of_mem {α β : Type} [BEq α] [LawfulBEq α] {l : List (α × β)}
    (hn : (l.map Prod.fst).Nodup) {k : α} {b : β} (h : (k, b) ∈ l) : l.lookup k = some b := by
  induction l with
  | nil => simp at h
  | cons r l ih =>
    obtain ⟨hr, hl⟩ := List.nodup_cons.mp hn
    rcases List.mem_cons.mp h with rfl | hm
    · simp
    · have hne : (k == r.1) = false := by
        simp only [beq_eq_false_iff_ne, ne_eq]
        exact fun e => hr (e ▸ List.mem_map_of_mem hm)
      obtain ⟨k', b'⟩ := r
      simp only [List.lookup_cons, hne]
      exact ih hl hm

end GpuiAgent.Framework
