import GpuiAgent.Framework.Indexed
import GpuiAgent.Tree.DiffFields

namespace GpuiAgent

open Framework NodeFields

theorem UiTree.map_id_subtrees (t : UiTree) : t.subtrees.map (fun r => r.2.id) = t.ids := by
  rw [UiTree.ids, ← Forest.map_key_rows NodeFields.id [], Forest.rows, List.map_map]
  rfl

theorem index_getElem? {t : UiTree} (hn : t.ids.Nodup) (id : String) (n : UiNode)
    (parent : Option String) :
    (index t)[id]? = some (n, parent) ↔
      ∃ path, (path, n) ∈ t.subtrees ∧ n.id = id ∧ path.head? = parent := by
  rw [← t.map_id_subtrees] at hn
  rw [index, getElem?_foldl_insert hn]
  simp only [Std.TreeMap.getElem?_emptyc, reduceCtorEq, and_false, or_false, Prod.mk.injEq,
    Prod.exists]
  constructor
  · rintro ⟨path, n', hm, hid, rfl, hp⟩
    exact ⟨path, hm, hid, hp⟩
  · rintro ⟨path, hm, hid, hp⟩
    exact ⟨path, n, hm, hid, rfl, hp⟩

theorem index_getElem?_eq_none {t : UiTree} (hn : t.ids.Nodup) (id : String) :
    (index t)[id]? = none ↔ id ∉ t.ids := by
  rw [← t.map_id_subtrees, Option.eq_none_iff_forall_ne_some, List.mem_map]
  constructor
  · rintro h ⟨⟨path, n⟩, hm, hid⟩
    exact h (n, path.head?) ((index_getElem? hn _ _ _).mpr ⟨path, hm, hid, rfl⟩)
  · rintro h ⟨n, parent⟩ he
    obtain ⟨path, hm, hid, -⟩ := (index_getElem? hn _ _ _).mp he
    exact h ⟨(path, n), hm, hid⟩

theorem foldl_append {ρ : Type*} (f : ρ → TreeDiff) (l : List ρ) (d : TreeDiff) :
    l.foldl (fun d e => d.append (f e)) d =
      ⟨d.added ++ l.flatMap fun e => (f e).added, d.removed ++ l.flatMap fun e => (f e).removed,
        d.changed ++ l.flatMap fun e => (f e).changed⟩ := by
  induction l generalizing d with
  | nil => simp
  | cons e l ih =>
    rw [List.foldl_cons, ih]
    simp [TreeDiff.append]

section Entry

variable (before after : TreeIndex) (id : String) (node : UiNode) (parent : Option String)

theorem diffEntry_of_new (h : before[id]? = none) : diffEntry before after id node parent =
    if embedded before after parent then {} else { added := [⟨node, parent⟩] } := by
  rw [diffEntry, h]

theorem diffEntry_of_moved {o : UiNode} {p : Option String} (h : before[id]? = some (o, p))
    (hp : p ≠ parent) :
    diffEntry before after id node parent = { removed := [id], added := [⟨node, parent⟩] } := by
  rw [diffEntry, h]
  exact if_pos hp

theorem diffEntry_of_kept {o : UiNode} (h : before[id]? = some (o, parent)) :
    diffEntry before after id node parent =
      if (changedFields o.label node.label).isEmpty then {}
      else { changed := [⟨id, changedFields o.label node.label⟩] } := by
  rw [diffEntry, h]
  exact if_neg (not_not.mpr rfl)

theorem mem_diffEntry_added (a : AddedNode) : a ∈ (diffEntry before after id node parent).added ↔
    a = ⟨node, parent⟩ ∧ (before[id]? = none ∧ embedded before after parent = false ∨
      ∃ o p, before[id]? = some (o, p) ∧ p ≠ parent) := by
  rcases h : before[id]? with _ | ⟨o, p⟩
  · rw [diffEntry_of_new _ _ _ _ _ h]
    cases embedded before after parent <;> simp
  · by_cases hp : p = parent
    · subst hp
      rw [diffEntry_of_kept _ _ _ _ _ h]
      split_ifs <;> simp
    · rw [diffEntry_of_moved _ _ _ _ _ h hp]
      simp [hp]

theorem mem_diffEntry_removed (x : String) : x ∈ (diffEntry before after id node parent).removed ↔
    x = id ∧ ∃ o p, before[id]? = some (o, p) ∧ p ≠ parent := by
  rcases h : before[id]? with _ | ⟨o, p⟩
  · rw [diffEntry_of_new _ _ _ _ _ h]
    split_ifs <;> simp
  · by_cases hp : p = parent
    · subst hp
      rw [diffEntry_of_kept _ _ _ _ _ h]
      split_ifs <;> simp
    · rw [diffEntry_of_moved _ _ _ _ _ h hp]
      simp [hp]

theorem mem_diffEntry_changed (c : ChangedNode) :
    c ∈ (diffEntry before after id node parent).changed ↔
      ∃ o, before[id]? = some (o, parent) ∧ c = ⟨id, changedFields o.label node.label⟩ ∧
        c.fields ≠ [] := by
  rcases h : before[id]? with _ | ⟨o, p⟩
  · rw [diffEntry_of_new _ _ _ _ _ h]
    split_ifs <;> simp
  · by_cases hp : p = parent
    · subst hp
      rw [diffEntry_of_kept _ _ _ _ _ h]
      cases hf : changedFields o.label node.label with
      | nil =>
        have hfields : c = ⟨id, changedFields o.label node.label⟩ →
            c.fields = changedFields o.label node.label := fun hc => by rw [hc]
        simpa [hf] using hfields
      | cons e es =>
        have hne : c = ⟨id, e :: es⟩ → c.fields ≠ [] := fun hc => by simp [hc]
        simpa [hf] using hne
    · rw [diffEntry_of_moved _ _ _ _ _ h hp]
      simp [hp]

/-- At most one node changes, and it is the one looked at. -/
theorem diffEntry_changed_ids :
    (diffEntry before after id node parent).changed.map ChangedNode.id = [] ∨
      (diffEntry before after id node parent).changed.map ChangedNode.id = [id] := by
  rcases h : before[id]? with _ | ⟨o, p⟩
  · rw [diffEntry_of_new _ _ _ _ _ h]
    split_ifs <;> simp
  · by_cases hp : p = parent
    · subst hp
      rw [diffEntry_of_kept _ _ _ _ _ h]
      split_ifs <;> simp
    · rw [diffEntry_of_moved _ _ _ _ _ h hp]
      simp

end Entry

section Members

variable {old new : UiTree} (ho : old.ids.Nodup) (hn : new.ids.Nodup)

theorem mem_index_toList {t : UiTree} (h : t.ids.Nodup) (id : String) (n : UiNode)
    (parent : Option String) :
    (id, n, parent) ∈ (index t).toList ↔
      ∃ path, (path, n) ∈ t.subtrees ∧ n.id = id ∧ path.head? = parent := by
  rw [Std.TreeMap.mem_toList_iff_getElem?_eq_some, index_getElem? h]

include ho hn

theorem mem_added_iff (a : AddedNode) : a ∈ (diffTrees old new).added ↔
    ∃ path, (path, a.node) ∈ new.subtrees ∧ a.parent = path.head? ∧
      (a.node.id ∉ old.ids ∧ embedded (index old) (index new) a.parent = false ∨
        ∃ q o, (q, o) ∈ old.subtrees ∧ o.id = a.node.id ∧ q.head? ≠ path.head?) := by
  simp only [diffTrees, foldl_append, List.mem_insertionSort, List.nil_append, List.mem_flatMap,
    Prod.exists, mem_index_toList hn, mem_diffEntry_added]
  constructor
  · rintro ⟨id, n, parent, ⟨path, hm, rfl, rfl⟩, rfl, h⟩
    refine ⟨path, hm, rfl, ?_⟩
    rcases h with ⟨h, he⟩ | ⟨o, p, h, hp⟩
    · exact Or.inl ⟨(index_getElem?_eq_none ho _).mp h, he⟩
    · obtain ⟨q, hq, hid, rfl⟩ := (index_getElem? ho _ _ _).mp h
      exact Or.inr ⟨q, o, hq, hid, hp⟩
  · rintro ⟨path, hm, hp, h⟩
    refine ⟨a.node.id, a.node, path.head?, ⟨path, hm, rfl, rfl⟩, by rw [← hp], ?_⟩
    rcases h with ⟨h, he⟩ | ⟨q, o, hq, hid, hne⟩
    · exact Or.inl ⟨(index_getElem?_eq_none ho _).mpr h, hp ▸ he⟩
    · exact Or.inr ⟨o, q.head?, (index_getElem? ho _ _ _).mpr ⟨q, hq, hid, rfl⟩, hne⟩

theorem mem_removed_iff (id : String) : id ∈ (diffTrees old new).removed ↔
    (∃ path n q o, (path, n) ∈ new.subtrees ∧ (q, o) ∈ old.subtrees ∧ n.id = id ∧ o.id = id ∧
      q.head? ≠ path.head?) ∨ id ∈ old.ids ∧ id ∉ new.ids := by
  have hmem : ∀ t : UiTree, t.ids.Nodup → (id ∈ index t ↔ id ∈ t.ids) := fun t ht => by
    rw [← Std.TreeMap.isSome_getElem?_iff_mem, ← Option.ne_none_iff_isSome, Ne,
      index_getElem?_eq_none ht, not_not]
  have hgone : id ∈ (index old).keys.filter (fun id => !(index new).contains id) ↔
      id ∈ old.ids ∧ id ∉ new.ids := by
    rw [List.mem_filter, Std.TreeMap.mem_keys, hmem old ho, ← hmem new hn,
      ← Std.TreeMap.contains_iff_mem, Bool.not_eq_true, Bool.not_eq_true']
  simp only [diffTrees, foldl_append, List.mem_insertionSort, List.nil_append, List.mem_append,
    List.mem_flatMap, Prod.exists, mem_index_toList hn, mem_diffEntry_removed, hgone]
  refine or_congr_left ⟨?_, ?_⟩
  · rintro ⟨id', n, parent, ⟨path, hm, rfl, rfl⟩, rfl, o, p, h, hp⟩
    obtain ⟨q, hq, hid, rfl⟩ := (index_getElem? ho _ _ _).mp h
    exact ⟨path, n, q, o, hm, hq, rfl, hid, hp⟩
  · rintro ⟨path, n, q, o, hm, hq, rfl, hid, hne⟩
    exact ⟨n.id, n, path.head?, ⟨path, hm, rfl, rfl⟩, rfl, o, q.head?,
      (index_getElem? ho _ _ _).mpr ⟨q, hq, hid, rfl⟩, hne⟩

theorem mem_changed_iff (c : ChangedNode) : c ∈ (diffTrees old new).changed ↔
    ∃ path n q o, (path, n) ∈ new.subtrees ∧ (q, o) ∈ old.subtrees ∧ o.id = n.id ∧
      q.head? = path.head? ∧ c = ⟨n.id, changedFields o.label n.label⟩ ∧ c.fields ≠ [] := by
  simp only [diffTrees, foldl_append, List.mem_insertionSort, List.nil_append, List.mem_flatMap,
    Prod.exists, mem_index_toList hn, mem_diffEntry_changed]
  constructor
  · rintro ⟨id, n, parent, ⟨path, hm, rfl, rfl⟩, o, h, hc, hf⟩
    obtain ⟨q, hq, hid, hp⟩ := (index_getElem? ho _ _ _).mp h
    exact ⟨path, n, q, o, hm, hq, hid, hp, hc, hf⟩
  · rintro ⟨path, n, q, o, hm, hq, hid, hp, hc, hf⟩
    exact ⟨n.id, n, path.head?, ⟨path, hm, rfl, rfl⟩, o,
      (index_getElem? ho _ _ _).mpr ⟨q, hq, hid, hp⟩, hc, hf⟩

omit ho hn in
theorem changed_nodup : ((diffTrees old new).changed.map ChangedNode.id).Nodup := by
  have hkeys : ((index new).toList.map Prod.fst).Nodup := by
    rw [List.Nodup, List.pairwise_map]
    refine (Std.TreeMap.distinct_keys_toList (t := index new)).imp fun h e => ?_
    simp [e] at h
  simp only [diffTrees, foldl_append, List.nil_append]
  refine ((List.perm_insertionSort _ _).map _).nodup_iff.mpr ?_
  rw [List.map_flatMap]
  refine hkeys.sublist ?_
  generalize (index new).toList = l
  induction l with
  | nil => simp
  | cons e l ih =>
    rw [List.flatMap_cons, List.map_cons, ← List.singleton_append]
    refine List.Sublist.append ?_ ih
    rcases diffEntry_changed_ids (index old) (index new) e.1 e.2.1 e.2.2 with h | h <;> simp [h]

end Members

end GpuiAgent
