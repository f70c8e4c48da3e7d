import GpuiAgent.Framework.RoseTree

namespace GpuiAgent.Framework.Forest

open RoseTree

variable {α κ : Type*} [DecidableEq κ] (key : α → κ)

mutual
/-- First subtree with key `k`, in pre-order. -/
def findIn (k : κ) : RoseTree α → Option (RoseTree α)
  | node a cs => if key a = k then some (node a cs) else find k cs
def find (k : κ) : Forest α → Option (RoseTree α)
  | [] => none
  | t :: ts => (findIn k t).orElse fun _ => find k ts
end

mutual
/-- Replace the first subtree with key `k` by its image under `f`; `none` when there is none. -/
def modifyIn (k : κ) (f : RoseTree α → RoseTree α) : RoseTree α → Option (RoseTree α)
  | node a cs => if key a = k then some (f (node a cs)) else (modify k f cs).map (node a)
def modify (k : κ) (f : RoseTree α → RoseTree α) : Forest α → Option (Forest α)
  | [] => none
  | t :: ts =>
    match modifyIn k f t with
    | some t' => some (t' :: ts)
    | none => (modify k f ts).map (t :: ·)
end

/-- Remove the first root with key `k`. -/
def eraseRoot (k : κ) (F : Forest α) : Option (Forest α) :=
  if F.any (fun t => key t.label = k) then some (F.eraseP fun t => key t.label = k) else none

mutual
def eraseUnder (k : κ) : RoseTree α → Option (RoseTree α)
  | node a cs => ((eraseRoot key k cs).orElse fun _ => eraseBelow k cs).map (node a)
/-- Remove a node with key `k` strictly below the roots: first tree first, a level before the
levels under it. -/
def eraseBelow (k : κ) : Forest α → Option (Forest α)
  | [] => none
  | t :: ts =>
    match eraseUnder k t with
    | some t' => some (t' :: ts)
    | none => (eraseBelow k ts).map (t :: ·)
end

/-- Remove a node with key `k` and everything under it, roots first; `none` when there is none. -/
def erase (k : κ) (F : Forest α) : Option (Forest α) :=
  (eraseRoot key k F).orElse fun _ => eraseBelow key k F

section Find

@[simp] theorem find_nil (k : κ) : find key k ([] : Forest α) = none := rfl

@[simp] theorem find_cons (k : κ) (a : α) (cs ts : Forest α) :
    find key k (node a cs :: ts) =
      if key a = k then some (node a cs) else (find key k cs).orElse fun _ => find key k ts := by
  rw [find, findIn]
  split_ifs <;> rfl

theorem find_isSome (k : κ) (F : Forest α) : (find key k F).isSome ↔ k ∈ keys key F := by
  induction F using induction with
  | nil => simp
  | cons a cs ts hc ht =>
    by_cases h : key a = k
    · simp [h]
    · have h' : k ≠ key a := fun e => h e.symm
      rw [find_cons, if_neg h, keys_cons, List.mem_cons, List.mem_append, ← hc, ← ht]
      cases find key k cs <;> simp [h']

theorem find_eq_none (k : κ) (F : Forest α) : find key k F = none ↔ k ∉ keys key F := by
  rw [← find_isSome, Option.not_isSome_iff_eq_none]

end Find

section Modify

@[simp] theorem modify_nil (k : κ) (f : RoseTree α → RoseTree α) :
    modify key k f ([] : Forest α) = none := rfl

theorem modify_cons (k : κ) (f : RoseTree α → RoseTree α) (a : α) (cs ts : Forest α) :
    modify key k f (node a cs :: ts) =
      if key a = k then some (f (node a cs) :: ts)
      else match modify key k f cs with
        | some cs' => some (node a cs' :: ts)
        | none => (modify key k f ts).map (node a cs :: ·) := by
  rw [modify, modifyIn]
  split_ifs
  · rfl
  · cases modify key k f cs <;> rfl

theorem modify_isSome (k : κ) (f : RoseTree α → RoseTree α) (F : Forest α) :
    (modify key k f F).isSome ↔ k ∈ keys key F := by
  induction F using induction with
  | nil => simp
  | cons a cs ts hc ht =>
    by_cases h : key a = k
    · simp [modify_cons, h]
    · have h' : k ≠ key a := fun e => h e.symm
      rw [modify_cons, if_neg h, keys_cons, List.mem_cons, List.mem_append, ← hc, ← ht]
      cases modify key k f cs <;> simp [h']

/-- Changing the label of the node with key `k`, its key kept, changes that row only. -/
theorem rows_modify_label {k : κ} {g : α → α} (hg : ∀ a, key (g a) = key a) {F F' : Forest α} :
    ∀ {p : List κ}, (keys key F).Nodup →
    modify key k (fun t => node (g t.label) t.children) F = some F' →
    rows key p F' = (rows key p F).map fun r => if key r.2 = k then (r.1, g r.2) else r := by
  induction F using induction generalizing F' with
  | nil => simp
  | cons a cs ts hc ht =>
    intro p hn h
    simp only [keys_cons, List.nodup_cons, List.nodup_append, List.mem_append, not_or] at hn
    obtain ⟨⟨hac, hat⟩, hnc, hnt, hdis⟩ := hn
    have same : ∀ (q : List κ) (G : Forest α), k ∉ keys key G →
        (rows key q G).map (fun r => if key r.2 = k then (r.1, g r.2) else r) = rows key q G := by
      intro q G hG
      conv_rhs => rw [← List.map_id (rows key q G)]
      apply List.map_congr_left
      intro r hr
      have hr' : key r.2 ≠ k := fun e => hG (e ▸ key_mem_of_mem_rows (q := r.1) hr)
      simp [hr']
    rw [modify_cons] at h
    split_ifs at h with hk
    · obtain rfl : node (g a) cs :: ts = F' := by simpa using h
      subst hk
      simp [hg, same _ cs hac, same _ ts hat]
    · cases hm : modify key k (fun t => node (g t.label) t.children) cs with
      | some cs' =>
        rw [hm] at h
        obtain rfl : node a cs' :: ts = F' := by simpa using h
        have hkc : k ∈ keys key cs := (modify_isSome key k _ cs).mp (by rw [hm]; rfl)
        have hkt : k ∉ keys key ts := fun hx => hdis k hkc k hx rfl
        simp [hk, hc hnc hm, same _ ts hkt]
      | none =>
        rw [hm] at h
        obtain ⟨ts', hts, rfl⟩ : ∃ ts', modify key k _ ts = some ts' ∧ node a cs :: ts' = F' := by
          simpa using h
        have hkc : k ∉ keys key cs := by
          rw [← modify_isSome key k (fun t => node (g t.label) t.children) cs, hm]
          simp
        simp [hk, ht hnt hts, same _ cs hkc]

/-- A list of label changes by key, absent keys skipped: each row takes its own changes in order. -/
theorem rows_foldl_modify_label {ι : Type*} {target : ι → κ} {u : ι → α → α}
    (hu : ∀ c a, key (u c a) = key a) {p : List κ} (cs : List ι) {F : Forest α}
    (hn : (keys key F).Nodup) :
    rows key p (cs.foldl (fun F c =>
        (modify key (target c) (fun t => node (u c t.label) t.children) F).getD F) F) =
      (rows key p F).map fun r =>
        (r.1, (cs.filter fun c => target c = key r.2).foldl (fun a c => u c a) r.2) := by
  induction cs generalizing F with
  | nil => simp
  | cons c cs ih =>
    have hrows : rows key p
        ((modify key (target c) (fun t => node (u c t.label) t.children) F).getD F) =
        (rows key p F).map fun r => if key r.2 = target c then (r.1, u c r.2) else r := by
      cases hm : modify key (target c) (fun t => node (u c t.label) t.children) F with
      | some F' => exact rows_modify_label key (hu c) hn hm
      | none =>
        have hk : target c ∉ keys key F := by
          rw [← modify_isSome key (target c) (fun t => node (u c t.label) t.children) F, hm]
          simp
        conv_lhs => rw [Option.getD_none, ← List.map_id (rows key p F)]
        apply List.map_congr_left
        intro r hr
        have hr' : key r.2 ≠ target c := fun e => hk (e ▸ key_mem_of_mem_rows (q := r.1) hr)
        simp [hr']
    have hn' : (keys key
        ((modify key (target c) (fun t => node (u c t.label) t.children) F).getD F)).Nodup := by
      rw [← map_key_rows key p] at hn ⊢
      rw [hrows, List.map_map]
      convert hn using 2
      funext r
      simp only [Function.comp_apply]
      split_ifs <;> simp [hu]
    rw [List.foldl_cons, ih hn', hrows, List.map_map]
    apply List.map_congr_left
    intro r _
    by_cases hr : key r.2 = target c
    · simp [hr, hu]
    · have hr' : ¬ target c = key r.2 := fun e => hr e.symm
      simp [hr, hr']

/-- Appending `t` to the children of the node with key `k` adds exactly the rows of `t`, placed
under that node. -/
theorem rows_modify_push {k : κ} {t : RoseTree α} {F F' : Forest α} : ∀ {p : List κ},
    modify key k (fun u => node u.label (u.children ++ [t])) F = some F' →
    ∃ q b, (q, b) ∈ rows key p F ∧ key b = k ∧
      (rows key p F').Perm (rows key p F ++ rows key (k :: q) [t]) := by
  induction F using induction generalizing F' with
  | nil => simp
  | cons a cs ts hc ht =>
    intro p h
    rw [modify_cons] at h
    split_ifs at h with hk
    · obtain rfl : node a (cs ++ [t]) :: ts = F' := by simpa using h
      subst hk
      refine ⟨p, a, by simp, rfl, ?_⟩
      simp only [rows_cons, rows_append, List.append_assoc, List.cons_append]
      exact .cons _ (.append_left _ List.perm_append_comm)
    · cases hm : modify key k (fun u => node u.label (u.children ++ [t])) cs with
      | some cs' =>
        rw [hm] at h
        obtain rfl : node a cs' :: ts = F' := by simpa using h
        obtain ⟨q, b, hr, hb, hp⟩ := hc (p := key a :: p) hm
        refine ⟨q, b, by simp [hr], hb, ?_⟩
        simp only [rows_cons, List.cons_append, List.append_assoc]
        refine .cons _ ((hp.append_right _).trans ?_)
        rw [List.append_assoc]
        exact .append_left _ List.perm_append_comm
      | none =>
        rw [hm] at h
        obtain ⟨ts', hts, rfl⟩ : ∃ ts', modify key k _ ts = some ts' ∧ node a cs :: ts' = F' := by
          simpa using h
        obtain ⟨q, b, hr, hb, hp⟩ := ht (p := p) hts
        refine ⟨q, b, by simp [hr], hb, ?_⟩
        simp only [rows_cons, List.cons_append, List.append_assoc]
        exact .cons _ (.append_left _ hp)

end Modify

section Erase

/-- A row survives the removal of key `k` when neither it nor an ancestor has that key. -/
def Clear (k : κ) (r : List κ × α) : Prop := key r.2 ≠ k ∧ k ∉ r.1

instance (k : κ) : DecidablePred (Clear key (α := α) k) :=
  fun _ => inferInstanceAs (Decidable (_ ∧ _))

theorem filter_clear_of_notMem {k : κ} {p : List κ} {F : Forest α} (hp : k ∉ p)
    (hk : k ∉ keys key F) : (rows key p F).filter (Clear key k) = rows key p F := by
  apply List.filter_eq_self.mpr
  intro r hr
  refine decide_eq_true ⟨fun e => hk (e ▸ key_mem_of_mem_rows (q := r.1) hr), fun h => ?_⟩
  exact (path_subset (b := r.2) hr k h).elim hp hk

theorem filter_clear_under {k : κ} {p : List κ} {F : Forest α} (hp : k ∈ p) :
    (rows key p F).filter (Clear key k) = [] := by
  apply List.filter_eq_nil_iff.mpr
  intro r hr hc
  exact (of_decide_eq_true hc).2 (subset_path (b := r.2) hr hp)

theorem eraseRoot_cons (k : κ) (a : α) (cs ts : Forest α) :
    eraseRoot key k (node a cs :: ts) =
      if key a = k then some ts else (eraseRoot key k ts).map (node a cs :: ·) := by
  by_cases h : key a = k
  · simp [eraseRoot, h]
  · simp only [eraseRoot, List.any_cons, label_node, h, decide_false, Bool.false_or,
      Bool.false_eq_true, not_false_eq_true, List.eraseP_cons_of_neg, if_false]
    split_ifs <;> rfl

theorem eraseBelow_cons (k : κ) (a : α) (cs ts : Forest α) :
    eraseBelow key k (node a cs :: ts) =
      match erase key k cs with
      | some cs' => some (node a cs' :: ts)
      | none => (eraseBelow key k ts).map (node a cs :: ·) := by
  rw [eraseBelow, eraseUnder, ← erase]
  cases erase key k cs <;> rfl

theorem eraseRoot_isSome_mem {k : κ} {F : Forest α} (h : (eraseRoot key k F).isSome) :
    k ∈ keys key F := by
  induction F with
  | nil => simp [eraseRoot] at h
  | cons t ts ih =>
    obtain ⟨a, cs⟩ := t
    rw [eraseRoot_cons] at h
    split_ifs at h with hk
    · simp [hk]
    · have hts : (eraseRoot key k ts).isSome := by simpa using h
      simp [ih hts]

theorem rows_eraseRoot {k : κ} {F F' : Forest α} : ∀ {p : List κ}, (keys key F).Nodup → k ∉ p →
    eraseRoot key k F = some F' → rows key p F' = (rows key p F).filter (Clear key k) := by
  induction F generalizing F' with
  | nil => simp [eraseRoot]
  | cons t ts ih =>
    obtain ⟨a, cs⟩ := t
    intro p hn hp h
    simp only [keys_cons, List.nodup_cons, List.nodup_append, List.mem_append, not_or] at hn
    obtain ⟨⟨hac, hat⟩, hnc, hnt, hdis⟩ := hn
    rw [eraseRoot_cons] at h
    split_ifs at h with hk
    · obtain rfl : ts = F' := by simpa using h
      subst hk
      rw [rows_cons, List.filter_cons_of_neg (by simp [Clear]), List.filter_append,
        filter_clear_under key (by simp), filter_clear_of_notMem key hp hat, List.nil_append]
    · obtain ⟨ts', hts, rfl⟩ : ∃ ts', eraseRoot key k ts = some ts' ∧ node a cs :: ts' = F' := by
        simpa using h
      have hkt : k ∈ keys key ts := eraseRoot_isSome_mem key (Option.isSome_of_eq_some hts)
      have hkc : k ∉ keys key cs := fun hx => hdis k hx k hkt rfl
      have hkp : k ∉ key a :: p := by
        simp only [List.mem_cons, not_or]
        exact ⟨fun e => hk e.symm, hp⟩
      rw [rows_cons, rows_cons, List.filter_cons_of_pos (by simp [Clear, hk, hp]),
        List.filter_append, filter_clear_of_notMem key hkp hkc, ih hnt hp hts]

theorem erase_eq (k : κ) (F : Forest α) :
    erase key k F = (eraseRoot key k F).orElse fun _ => eraseBelow key k F := rfl

theorem isSome_of_erase {k : κ} {F F' : Forest α} (h : erase key k F = some F') :
    (eraseRoot key k F).isSome ∨ (eraseBelow key k F).isSome := by
  rw [erase_eq] at h
  cases hr : eraseRoot key k F with
  | some v => exact Or.inl rfl
  | none =>
    rw [hr] at h
    exact Or.inr (Option.isSome_of_eq_some h)

theorem eraseBelow_isSome_mem {k : κ} {F : Forest α} (h : (eraseBelow key k F).isSome) :
    k ∈ keys key F := by
  induction F using induction with
  | nil => simp [eraseBelow] at h
  | cons a cs ts hc ht =>
    rw [eraseBelow_cons] at h
    cases he : erase key k cs with
    | some cs' =>
      rcases isSome_of_erase key he with hr | hb
      · simp [eraseRoot_isSome_mem key hr]
      · simp [hc hb]
    | none =>
      rw [he] at h
      simp [ht (by simpa using h)]

theorem erase_isSome (k : κ) (F : Forest α) : (erase key k F).isSome ↔ k ∈ keys key F := by
  constructor
  · intro h
    obtain ⟨F', hF⟩ := Option.isSome_iff_exists.mp h
    exact (isSome_of_erase key hF).elim (eraseRoot_isSome_mem key) (eraseBelow_isSome_mem key)
  · induction F using induction with
    | nil => simp
    | cons a cs ts hc ht =>
      intro h
      rw [erase_eq, eraseRoot_cons]
      split_ifs with hk
      · rfl
      · have h' : k ∈ keys key cs ∨ k ∈ keys key ts := by
          simpa [show k ≠ key a from fun e => hk e.symm] using h
        cases hr : eraseRoot key k ts with
        | some v => rfl
        | none =>
          simp only [Option.map_none, Option.orElse_none, eraseBelow_cons]
          cases he : erase key k cs with
          | some cs' => rfl
          | none =>
            have hts : k ∈ keys key ts := h'.resolve_left fun hx => by simpa [he] using hc hx
            simpa [erase_eq, hr] using ht hts

/-- Removing key `k` removes exactly the rows at or under it. -/
theorem rows_erase {k : κ} {F F' : Forest α} {p : List κ} (hn : (keys key F).Nodup) (hp : k ∉ p)
    (h : erase key k F = some F') : rows key p F' = (rows key p F).filter (Clear key k) := by
  have both : ∀ (F' : Forest α) (p : List κ), (keys key F).Nodup → k ∉ p →
      (erase key k F = some F' ∨ eraseBelow key k F = some F' ∧ eraseRoot key k F = none) →
      rows key p F' = (rows key p F).filter (Clear key k) := by
    clear h hp hn
    induction F using induction with
    | nil => simp [erase, eraseRoot, eraseBelow]
    | cons a cs ts hc ht =>
      intro F' p hn hp h
      have hn0 := hn
      simp only [keys_cons, List.nodup_cons, List.nodup_append, List.mem_append, not_or] at hn
      obtain ⟨⟨hac, hat⟩, hnc, hnt, hdis⟩ := hn
      have hb : eraseRoot key k (node a cs :: ts) = some F' ∨
          eraseBelow key k (node a cs :: ts) = some F' ∧
            eraseRoot key k (node a cs :: ts) = none := by
        rcases h with h | h
        · rw [erase_eq] at h
          cases hr : eraseRoot key k (node a cs :: ts) with
          | some v => rw [hr] at h; exact Or.inl h
          | none => rw [hr] at h; exact Or.inr ⟨h, rfl⟩
        · exact Or.inr h
      rcases hb with hb | ⟨hb, hno⟩
      · exact rows_eraseRoot key hn0 hp hb
      · rw [eraseRoot_cons] at hno
        have hka : key a ≠ k := fun e => by simp [e] at hno
        have hnots : eraseRoot key k ts = none := by simpa [hka] using hno
        have hkp : k ∉ key a :: p := by
          simp only [List.mem_cons, not_or]
          exact ⟨fun e => hka e.symm, hp⟩
        have hhead : Clear key k (p, a) := ⟨hka, hp⟩
        rw [eraseBelow_cons] at hb
        cases he : erase key k cs with
        | some cs' =>
          rw [he] at hb
          obtain rfl : node a cs' :: ts = F' := by simpa using hb
          have hkc : k ∈ keys key cs := (erase_isSome key k cs).mp (by rw [he]; rfl)
          have hkt : k ∉ keys key ts := fun hx => hdis k hkc k hx rfl
          rw [rows_cons, rows_cons, List.filter_cons_of_pos (by simpa using hhead),
            List.filter_append, filter_clear_of_notMem key hp hkt, hc cs' _ hnc hkp (Or.inl he)]
        | none =>
          rw [he] at hb
          obtain ⟨ts', hts, rfl⟩ : ∃ ts', eraseBelow key k ts = some ts' ∧
              node a cs :: ts' = F' := by simpa using hb
          have hkc : k ∉ keys key cs := by
            rw [← erase_isSome key k cs, he]
            simp
          rw [rows_cons, rows_cons, List.filter_cons_of_pos (by simpa using hhead),
            List.filter_append, filter_clear_of_notMem key hkp hkc,
            ht ts' p hnt hp (Or.inr ⟨hts, hnots⟩)]
  exact both F' p hn hp (Or.inl h)

/-- Erasing with "absent" read as "unchanged". -/
theorem rows_erase_getD {k : κ} {F : Forest α} {p : List κ} (hn : (keys key F).Nodup)
    (hp : k ∉ p) :
    rows key p ((erase key k F).getD F) = (rows key p F).filter (Clear key k) := by
  cases he : erase key k F with
  | some F' => exact rows_erase key hn hp he
  | none =>
    have hk : k ∉ keys key F := by
      rw [← erase_isSome key k F, he]
      simp
    exact (filter_clear_of_notMem key hp hk).symm

theorem rows_foldl_erase {p : List κ} {ks : List κ} (hp : ∀ k ∈ ks, k ∉ p) {F : Forest α}
    (hn : (keys key F).Nodup) :
    rows key p (ks.foldl (fun F k => (erase key k F).getD F) F) =
      (rows key p F).filter fun r => ∀ k ∈ ks, Clear key k r := by
  induction ks generalizing F with
  | nil => simp
  | cons k ks ih =>
    obtain ⟨hk, hks⟩ := List.forall_mem_cons.mp hp
    have he := rows_erase_getD key (p := p) hn hk
    have hn' : (keys key ((erase key k F).getD F)).Nodup := by
      rw [← map_key_rows key p] at hn ⊢
      rw [he]
      exact hn.sublist (List.filter_sublist.map _)
    rw [List.foldl_cons, ih hks hn', he, List.filter_filter]
    simp [Bool.and_comm]

end Erase

end GpuiAgent.Framework.Forest
