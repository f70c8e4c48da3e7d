import GpuiAgent.Tree.DiffApply

namespace GpuiAgent

open Framework NodeFields

/-- The state in which `applyDiff` leaves the grafting loop. -/
def grafted (mine : UiTree) (diff : TreeDiff) : GraftPass :=
  graftLoop diff.added.length (patched mine diff) diff.added

theorem applyDiff_nodes (mine : UiTree) (diff : TreeDiff) :
    (applyDiff mine diff).nodes = (grafted mine diff).nodes := rfl

/-- The node of a tree with a given id: its fields and its parent's id. -/
def UiTree.nodeAt (t : UiTree) (id : String) : Option (NodeFields × Option String) :=
  (t.findWithParent id).map fun r => (r.1.label, r.2)

/-- Two trees have the same ids, and each id the same parent and the same fields in both. -/
structure SameNodes (t u : UiTree) : Prop where
  ids : t.ids.Perm u.ids
  nodes : ∀ id, t.nodeAt id = u.nodeAt id

section Inverse

variable {mine old new : UiTree} (h : Patchable mine old new)

include h

theorem grafted_spec :
    Grafted mine old new (grafted mine (diffTrees old new)).nodes ∧
    (∀ add ∈ (diffTrees old new).added,
      add.node.id ∈ Forest.keys NodeFields.id (grafted mine (diffTrees old new)).nodes ∨
        add ∈ (grafted mine (diffTrees old new)).pending) ∧
    (∀ add ∈ (grafted mine (diffTrees old new)).pending, add ∈ (diffTrees old new).added ∧
      ∃ p, add.parent = some p ∧
        p ∉ Forest.keys NodeFields.id (grafted mine (diffTrees old new)).nodes) := by
  obtain ⟨h₁, -, h₃, h₄⟩ := graftLoop_spec h (diffTrees old new).added.length
    (patched mine (diffTrees old new)) (diffTrees old new).added le_rfl (grafted_patched h)
    fun _ ha => ha
  exact ⟨h₁, h₃, h₄⟩

/-- Every row of the new tree has its key in the result: by induction on its ancestors, it is kept,
or inside a placed subtree, or an addition whose parent is there. -/
theorem mem_keys_grafted {path : List String} {b : NodeFields} (hb : (path, b) ∈ new.rows) :
    b.id ∈ Forest.keys NodeFields.id (grafted mine (diffTrees old new)).nodes := by
  obtain ⟨hg, hplaced, hpending⟩ := grafted_spec h
  have kept : ∀ {q : List String} {id : String}, Kept old new q id →
      id ∈ Forest.keys NodeFields.id (grafted mine (diffTrees old new)).nodes := by
    intro q id hk
    obtain ⟨c, hrc, rfl⟩ := mem_patched_of_kept h hk
    exact Forest.key_mem_of_mem_rows (hg.kept _ hrc)
  induction path generalizing b with
  | nil =>
    by_cases hk : Kept old new [] b.id
    · exact kept hk
    · obtain ⟨n, hs, rfl⟩ := Forest.exists_subtree_of_mem_rows hb
      have ha := added_of_not_kept h hs hk (by simp)
      refine (hplaced _ ha).resolve_right fun hp => ?_
      obtain ⟨-, p, hpar, -⟩ := hpending _ hp
      simp at hpar
  | cons x path ih =>
    by_cases hk : Kept old new (x :: path) b.id
    · exact kept hk
    · obtain ⟨n, hs, rfl⟩ := Forest.exists_subtree_of_mem_rows hb
      obtain ⟨c, hrc, rfl⟩ := (Forest.parent_mem_rows hb).resolve_left (by simp)
      have hx := ih hrc
      by_cases hkx : Kept old new path c.id
      · have ha := added_of_not_kept h hs hk fun y q he => by
          obtain ⟨rfl, rfl⟩ := List.cons.inj he
          exact hkx
        refine (hplaced _ ha).resolve_right fun hp => ?_
        obtain ⟨-, p, hpar, hno⟩ := hpending _ hp
        obtain rfl : c.id = p := by simpa using hpar
        exact hno hx
      · obtain ⟨u, hsu, rfl⟩ := Forest.exists_subtree_of_mem_rows hrc
        exact Forest.key_mem_of_mem_rows (hg.closed path u hsu hx hkx _
          (Forest.mem_rows_subtree h.nodup_new (by simp) hsu hb List.mem_cons_self))

/-- The rows of the result: the kept ids with their received fields, and the other rows of the new
tree as they are. -/
theorem mem_rows_applyDiff (path : List String) (b : NodeFields) :
    (path, b) ∈ (applyDiff mine (diffTrees old new)).rows ↔
      (∃ a o n, (path, a) ∈ mine.rows ∧ (path, o) ∈ old.rows ∧ (path, n) ∈ new.rows ∧
        o.id = a.id ∧ n.id = a.id ∧ b = received a o n) ∨
      (path, b) ∈ new.rows ∧ ¬ Kept old new path b.id := by
  have hg := (grafted_spec h).1
  rw [UiTree.rows, applyDiff_nodes, ← mem_rows_patched h]
  constructor
  · exact hg.sound _
  · rintro (hp | ⟨hn, hk⟩)
    · exact hg.kept _ hp
    · exact hg.row_of_not_kept h hn hk (mem_keys_grafted h hn)

theorem nodup_applyDiff : (applyDiff mine (diffTrees old new)).ids.Nodup :=
  (grafted_spec h).1.nodup

/-- No addition is left pending: its parent is in the result. -/
theorem grafted_pending : (grafted mine (diffTrees old new)).pending = [] := by
  refine List.eq_nil_iff_forall_not_mem.mpr fun add ha => ?_
  obtain ⟨hadd, p, hpar, hno⟩ := (grafted_spec h).2.2 add ha
  obtain ⟨path, hs, hp, -⟩ := not_kept_of_added h hadd
  cases path with
  | nil => simp [hp] at hpar
  | cons x path =>
    obtain rfl : x = p := by simpa [hp] using hpar
    obtain ⟨c, hrc, rfl⟩ :=
      (Forest.parent_mem_rows (Forest.mem_rows_of_mem_subtrees hs)).resolve_left (by simp)
    exact hno (mem_keys_grafted h hrc)

/-- Whatever the client's fields are, the result has the new tree's ids under its ancestors. -/
theorem applyDiff_shape (path : List String) (id : String) :
    (∃ b, (path, b) ∈ (applyDiff mine (diffTrees old new)).rows ∧ b.id = id) ↔
      ∃ n, (path, n) ∈ new.rows ∧ n.id = id := by
  simp only [mem_rows_applyDiff h]
  constructor
  · rintro ⟨b, ⟨a, o, n, -, -, hrn, -, hna, rfl⟩ | ⟨hn, -⟩, rfl⟩
    · exact ⟨n, hrn, hna.trans (applyFields_id a _).symm⟩
    · exact ⟨b, hn, rfl⟩
  · rintro ⟨n, hrn, rfl⟩
    by_cases hk : Kept old new path n.id
    · obtain ⟨⟨o, hro, ho⟩, -⟩ := hk
      obtain ⟨a, hra, ha⟩ := (h.shape path n.id).mpr ⟨o, hro, ho⟩
      exact ⟨received a o n, Or.inl ⟨a, o, n, hra, hro, hrn, ho.trans ha.symm, ha.symm, rfl⟩,
        (applyFields_id a _).trans ha⟩
    · exact ⟨n, Or.inr ⟨hrn, hk⟩, rfl⟩

end Inverse

theorem UiTree.nodeAt_eq_some {t : UiTree} (hn : t.ids.Nodup) (id : String) (a : NodeFields)
    (parent : Option String) :
    t.nodeAt id = some (a, parent) ↔
      ∃ path, (path, a) ∈ t.rows ∧ a.id = id ∧ path.head? = parent := by
  simp only [UiTree.nodeAt, UiTree.findWithParent, Option.map_map, Option.map_eq_some_iff,
    Function.comp_apply, Prod.mk.injEq, Prod.exists]
  constructor
  · rintro ⟨path, n, hf, rfl, hp⟩
    have hid := List.find?_some hf
    exact ⟨path, Forest.mem_rows_of_mem_subtrees (List.mem_of_find?_eq_some hf),
      of_decide_eq_true hid, hp⟩
  · rintro ⟨path, hr, rfl, hp⟩
    obtain ⟨n, hs, rfl⟩ := Forest.exists_subtree_of_mem_rows hr
    have hsome : (t.subtrees.find? fun r => r.2.id = n.label.id).isSome :=
      List.find?_isSome.mpr ⟨_, hs, decide_eq_true rfl⟩
    obtain ⟨⟨q, m⟩, hf⟩ := Option.isSome_iff_exists.mp hsome
    have hid : m.id = n.label.id := by simpa using List.find?_some hf
    obtain ⟨rfl, rfl⟩ := Forest.subtree_unique hn (List.mem_of_find?_eq_some hf) hs hid
    exact ⟨q, m, hf, rfl, hp⟩

theorem sameNodes_of_mem_rows {t u : UiTree} (ht : t.ids.Nodup) (hu : u.ids.Nodup)
    (hrows : ∀ path a, (path, a) ∈ t.rows ↔ (path, a) ∈ u.rows) : SameNodes t u where
  ids := by
    refine (List.perm_ext_iff_of_nodup ht hu).mpr fun id => ⟨fun hid => ?_, fun hid => ?_⟩
    · obtain ⟨q, b, hr, rfl⟩ := Forest.exists_row_of_key_mem [] hid
      exact Forest.key_mem_of_mem_rows ((hrows q b).mp hr)
    · obtain ⟨q, b, hr, rfl⟩ := Forest.exists_row_of_key_mem [] hid
      exact Forest.key_mem_of_mem_rows ((hrows q b).mpr hr)
  nodes := fun id => by
    refine Option.ext fun ⟨a, parent⟩ => ?_
    rw [UiTree.nodeAt_eq_some ht, UiTree.nodeAt_eq_some hu]
    simp only [hrows]

/-- Applying a diff inverts it exactly when no field change of a kept node is lost in the
serialisation of the new node. -/
theorem applyDiff_diffTrees_iff {old new : UiTree} (ho : old.ids.Nodup) (hn : new.ids.Nodup)
    (hne : "" ∉ new.ids) :
    SameNodes (applyDiff old (diffTrees old new)) new ↔
      ∀ path o n, (path, o) ∈ old.rows → (path, n) ∈ new.rows → o.id = n.id → Carries o n := by
  have h : Patchable old old new := ⟨ho, ho, hn, hne, fun _ _ => Iff.rfl⟩
  constructor
  · intro hsame path o n hro hrn hid
    have hr : (path, received o o n) ∈ (applyDiff old (diffTrees old new)).rows :=
      (mem_rows_applyDiff h _ _).mpr (Or.inl ⟨o, o, n, hro, hro, hrn, rfl, hid.symm, rfl⟩)
    have hnode := (UiTree.nodeAt_eq_some (nodup_applyDiff h) n.id _ path.head?).mpr
      ⟨path, hr, (applyFields_id o _).trans hid, rfl⟩
    rw [hsame.nodes, (UiTree.nodeAt_eq_some hn n.id n path.head?).mpr ⟨path, hrn, rfl, rfl⟩] at hnode
    have heq : received o o n = n := by simpa using hnode.symm
    exact (received_self_eq_iff hid).mp heq
  · intro hcarries
    refine sameNodes_of_mem_rows (nodup_applyDiff h) hn fun path b => ?_
    rw [mem_rows_applyDiff h]
    constructor
    · rintro (⟨a, o, n, hra, hro, hrn, hoa, hna, rfl⟩ | ⟨hb, -⟩)
      · obtain ⟨-, rfl⟩ := Forest.row_unique ho hra hro hoa.symm
        rw [(received_self_eq_iff hna.symm).mpr (hcarries path a n hra hrn hna.symm)]
        exact hrn
      · exact hb
    · intro hb
      by_cases hk : Kept old new path b.id
      · obtain ⟨⟨o, hro, hid⟩, -⟩ := hk
        exact Or.inl ⟨o, o, b, hro, hro, hb, rfl, hid.symm,
          ((received_self_eq_iff hid).mpr (hcarries path o b hro hb hid)).symm⟩
      · exact Or.inr ⟨hb, hk⟩

section Runs

/-- A draft box filled in, and the same box cleared. -/
def draftFilled : UiTree where
  app := "todo"
  platform := .desktop
  ready := true
  nodes := [(UiNode.new "draft" Role.TEXTBOX "").withValue "milk"]

def draftCleared : UiTree := { draftFilled with nodes := [UiNode.new "draft" Role.TEXTBOX ""] }

/-- A list whose only item has moved to the top, next to a new one. -/
def itemNested : UiTree := { draftFilled with
  nodes := [(UiNode.new "list" Role.LIST "").withChild (UiNode.new "a" Role.LIST_ITEM "A")] }

def itemMoved : UiTree := { draftFilled with
  nodes := [UiNode.new "list" Role.LIST "", UiNode.new "a" Role.LIST_ITEM "A",
    UiNode.new "b" Role.LIST_ITEM "B"] }

theorem applyDiff_moved :
    SameNodes (applyDiff itemNested (diffTrees itemNested itemMoved)) itemMoved :=
  (applyDiff_diffTrees_iff (by decide) (by decide) (by decide)).mpr fun path o n ho hn hid => by
    have hall : ∀ r ∈ itemNested.rows, ∀ s ∈ itemMoved.rows,
        r.2.id = s.2.id → Carries r.2 s.2 := by decide
    exact hall _ ho _ hn hid

theorem applyDiff_cleared : ¬ ∀ old new : UiTree, old.ids.Nodup → new.ids.Nodup → "" ∉ old.ids →
    "" ∉ new.ids → SameNodes (applyDiff old (diffTrees old new)) new := by
  intro h
  have hs := (h draftFilled draftCleared (by decide) (by decide) (by decide) (by decide)).nodes
    "draft"
  revert hs
  decide +kernel

end Runs

end GpuiAgent
