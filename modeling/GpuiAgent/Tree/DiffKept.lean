import GpuiAgent.Tree.DiffIndex

namespace GpuiAgent

open Framework NodeFields

/-- Two trees with unique ids, and a client tree with the ids and parents of the first. -/
structure Patchable (mine old new : UiTree) : Prop where
  nodup_mine : mine.ids.Nodup
  nodup_old : old.ids.Nodup
  nodup_new : new.ids.Nodup
  nonempty : "" ∉ new.ids
  shape : ∀ q id, (∃ a, (q, a) ∈ mine.rows ∧ a.id = id) ↔ ∃ o, (q, o) ∈ old.rows ∧ o.id = id

/-- The id has the same ancestors in both trees. -/
def Kept (old new : UiTree) (path : List String) (id : String) : Prop :=
  (∃ o, (path, o) ∈ old.rows ∧ o.id = id) ∧ ∃ n, (path, n) ∈ new.rows ∧ n.id = id

section Kept

variable {old new : UiTree} (ho : old.ids.Nodup) (hn : new.ids.Nodup)

theorem Kept.parent {old new : UiTree} {path : List String} {x id : String}
    (h : Kept old new (x :: path) id) : Kept old new path x := by
  obtain ⟨⟨o, ho, -⟩, n, hn, -⟩ := h
  refine ⟨(Forest.parent_mem_rows ho).resolve_left (by simp), ?_⟩
  exact (Forest.parent_mem_rows hn).resolve_left (by simp)

include ho hn

/-- The removal list spares a kept id and its ancestors. -/
theorem Kept.clear {path : List String} {id : String} (h : Kept old new path id) :
    ∀ k ∈ (diffTrees old new).removed, id ≠ k ∧ k ∉ path := by
  have self : ∀ {path : List String} {id : String}, Kept old new path id →
      id ∉ (diffTrees old new).removed := by
    rintro path _ ⟨⟨o, hro, rfl⟩, n, hrn, hid⟩ hmem
    rcases (mem_removed_iff ho hn _).mp hmem with ⟨pn, n', po, o', hsn, hso, hidn, hido, hne⟩ | h
    · have e₁ := Forest.row_unique ho hro (Forest.mem_rows_of_mem_subtrees hso) hido.symm
      have e₂ := Forest.row_unique hn hrn (Forest.mem_rows_of_mem_subtrees hsn)
        (hid.trans hidn.symm)
      rw [← e₁.1, ← e₂.1] at hne
      exact hne rfl
    · exact h.2 (hid ▸ Forest.key_mem_of_mem_rows hrn)
  intro k hk
  refine ⟨fun e => self h (e ▸ hk), ?_⟩
  induction path generalizing id with
  | nil => simp
  | cons x path ih =>
    simp only [List.mem_cons, not_or]
    exact ⟨fun e => self h.parent (e ▸ hk), ih h.parent⟩

theorem same_parent_of_spared {path : List String} {o : NodeFields} (h : (path, o) ∈ old.rows)
    (hs : o.id ∉ (diffTrees old new).removed) :
    ∃ q n, (q, n) ∈ new.rows ∧ n.id = o.id ∧ path.head? = q.head? := by
  rw [mem_removed_iff ho hn, not_or] at hs
  have hid : o.id ∈ new.ids := by
    by_contra hno
    exact hs.2 ⟨Forest.key_mem_of_mem_rows h, hno⟩
  obtain ⟨q, n, hrn, hidn⟩ := Forest.exists_row_of_key_mem [] hid
  refine ⟨q, n, hrn, hidn, ?_⟩
  by_contra hne
  obtain ⟨tn, hsn, rfl⟩ := Forest.exists_subtree_of_mem_rows hrn
  obtain ⟨u, hsu, rfl⟩ := Forest.exists_subtree_of_mem_rows h
  exact hs.1 ⟨q, tn, path, u, hsn, hsu, hidn, rfl, hne⟩

/-- What the removal list spares is kept. -/
theorem kept_of_clear {path : List String} {o : NodeFields} (h : (path, o) ∈ old.rows)
    (hc : ∀ k ∈ (diffTrees old new).removed, o.id ≠ k ∧ k ∉ path) : Kept old new path o.id := by
  induction path generalizing o with
  | nil =>
    obtain ⟨q, n, hrn, hid, hhead⟩ := same_parent_of_spared ho hn h fun hk => (hc _ hk).1 rfl
    cases q with
    | nil => exact ⟨⟨o, h, rfl⟩, n, hrn, hid⟩
    | cons y q => simp at hhead
  | cons x path ih =>
    obtain ⟨q, n, hrn, hid, hhead⟩ := same_parent_of_spared ho hn h fun hk => (hc _ hk).1 rfl
    cases q with
    | nil => simp at hhead
    | cons y q =>
      -- the parent is spared too, so by induction its ancestors agree
      obtain rfl : x = y := by simpa using hhead
      obtain ⟨c, hrc, hidc⟩ := (Forest.parent_mem_rows h).resolve_left (by simp)
      obtain ⟨d, hrd, hidd⟩ := (Forest.parent_mem_rows hrn).resolve_left (by simp)
      have hkc := ih hrc fun k hk => ⟨fun e => (hc k hk).2 (by simp [← e, ← hidc]),
        fun e => (hc k hk).2 (by simp [e])⟩
      obtain ⟨n', hrn', hidn'⟩ := hkc.2
      have hpath := (Forest.row_unique hn hrn' hrd (hidn'.trans (hidc.trans hidd.symm))).1
      exact ⟨⟨o, h, rfl⟩, n, hpath ▸ hrn, hid⟩

theorem kept_iff_clear {path : List String} {o : NodeFields} (h : (path, o) ∈ old.rows) :
    (∀ k ∈ (diffTrees old new).removed, o.id ≠ k ∧ k ∉ path) ↔ Kept old new path o.id :=
  ⟨kept_of_clear ho hn h, Kept.clear ho hn⟩

end Kept

section Patched

variable {mine old new : UiTree} (h : Patchable mine old new)

/-- The nodes after the removals and the field changes, before any addition. -/
def patched (mine : UiTree) (diff : TreeDiff) : List UiNode :=
  diff.changed.foldl applyChange (diff.removed.foldl removeId mine.nodes)

include h

omit h in
theorem applyFields_changed (ho : old.ids.Nodup) (hn : new.ids.Nodup) {path : List String}
    {o n : NodeFields} (hro : (path, o) ∈ old.rows) (hrn : (path, n) ∈ new.rows) (hid : o.id = n.id)
    (a : NodeFields) :
    ((diffTrees old new).changed.filter fun c => c.id = n.id).foldl
      (fun a c => applyFields a c.fields) a = received a o n := by
  have hall : ∀ c ∈ (diffTrees old new).changed, c.id = n.id →
      c = ⟨n.id, changedFields o n⟩ ∧ c.fields ≠ [] := by
    intro c hc he
    obtain ⟨pn, tn, po, u, hsn, hsu, hidu, -, rfl, hf⟩ := (mem_changed_iff ho hn c).mp hc
    have e₁ := Forest.row_unique hn hrn (Forest.mem_rows_of_mem_subtrees hsn) he.symm
    have e₂ := Forest.row_unique ho hro (Forest.mem_rows_of_mem_subtrees hsu)
      (hid.trans (he.symm.trans hidu.symm))
    refine ⟨?_, hf⟩
    rw [e₁.2, e₂.2]
    rfl
  by_cases hf : changedFields o n = []
  · have hnone : (diffTrees old new).changed.filter (fun c => c.id = n.id) = [] := by
      refine List.filter_eq_nil_iff.mpr fun c hc he => ?_
      obtain ⟨rfl, hne⟩ := hall c hc (of_decide_eq_true he)
      exact hne hf
    rw [hnone, received, hf]
    rfl
  · obtain ⟨tn, hsn, rfl⟩ := Forest.exists_subtree_of_mem_rows hrn
    obtain ⟨u, hsu, rfl⟩ := Forest.exists_subtree_of_mem_rows hro
    have hc : (⟨tn.label.id, changedFields u.label tn.label⟩ : ChangedNode) ∈
        (diffTrees old new).changed :=
      (mem_changed_iff ho hn _).mpr ⟨path, tn, path, u, hsn, hsu, hid, rfl, rfl, hf⟩
    rw [filter_key_eq_singleton changed_nodup hc]
    rfl

theorem rows_removed :
    Forest.rows NodeFields.id [] ((diffTrees old new).removed.foldl removeId mine.nodes) =
      mine.rows.filter fun r => ∀ k ∈ (diffTrees old new).removed, Forest.Clear NodeFields.id k r :=
  Forest.rows_foldl_erase NodeFields.id (by simp) h.nodup_mine

theorem nodup_removed :
    (Forest.keys NodeFields.id ((diffTrees old new).removed.foldl removeId mine.nodes)).Nodup := by
  have hn := h.nodup_mine
  rw [UiTree.ids, ← Forest.map_key_rows NodeFields.id []] at hn
  rw [← Forest.map_key_rows NodeFields.id [], rows_removed h]
  exact hn.sublist (List.filter_sublist.map _)

theorem rows_patched :
    Forest.rows NodeFields.id [] (patched mine (diffTrees old new)) =
      (Forest.rows NodeFields.id [] ((diffTrees old new).removed.foldl removeId mine.nodes)).map
        fun r => (r.1, ((diffTrees old new).changed.filter fun c => c.id = r.2.id).foldl
          (fun a c => applyFields a c.fields) r.2) :=
  Forest.rows_foldl_modify_label NodeFields.id (fun (c : ChangedNode) a => applyFields_id a c.fields) _
    (nodup_removed h)

theorem nodup_patched : (Forest.keys NodeFields.id (patched mine (diffTrees old new))).Nodup := by
  have hid : ∀ (cs : List ChangedNode) (a : NodeFields),
      (cs.foldl (fun a c => applyFields a c.fields) a).id = a.id := by
    intro cs
    induction cs with
    | nil => simp
    | cons c cs ih =>
      intro a
      rw [List.foldl_cons, ih, applyFields_id]
  have hn := nodup_removed h
  rw [← Forest.map_key_rows NodeFields.id []] at hn ⊢
  rw [rows_patched h, List.map_map]
  simpa only [Function.comp_def, hid] using hn

/-- Before the additions exactly the kept ids are left, each with its received fields. -/
theorem mem_rows_patched (path : List String) (b : NodeFields) :
    (path, b) ∈ Forest.rows NodeFields.id [] (patched mine (diffTrees old new)) ↔
      ∃ a o n, (path, a) ∈ mine.rows ∧ (path, o) ∈ old.rows ∧ (path, n) ∈ new.rows ∧
        o.id = a.id ∧ n.id = a.id ∧ b = received a o n := by
  rw [rows_patched h, rows_removed h]
  simp only [List.mem_map, List.mem_filter, decide_eq_true_eq, Prod.exists, Prod.mk.injEq]
  constructor
  · rintro ⟨path, a, ⟨hra, hc⟩, rfl, rfl⟩
    obtain ⟨o, hro, hoa⟩ := (h.shape path a.id).mp ⟨a, hra, rfl⟩
    have hk := (kept_iff_clear h.nodup_old h.nodup_new hro).mp (by rw [hoa]; exact hc)
    obtain ⟨n, hrn, hno⟩ := hk.2
    refine ⟨a, o, n, hra, hro, hrn, hoa, hno.trans hoa, ?_⟩
    rw [← hoa, ← hno]
    exact applyFields_changed h.nodup_old h.nodup_new hro hrn hno.symm a
  · rintro ⟨a, o, n, hra, hro, hrn, hoa, hna, rfl⟩
    have hk : Kept old new path o.id := ⟨⟨o, hro, rfl⟩, n, hrn, hna.trans hoa.symm⟩
    have hc := (kept_iff_clear h.nodup_old h.nodup_new hro).mpr hk
    rw [hoa] at hc
    refine ⟨path, a, ⟨hra, hc⟩, rfl, ?_⟩
    rw [← hna]
    exact applyFields_changed h.nodup_old h.nodup_new hro hrn (hoa.trans hna.symm) a

end Patched

end GpuiAgent
