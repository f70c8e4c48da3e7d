import GpuiAgent.Tree.DiffKept

namespace GpuiAgent

open Framework NodeFields

/-- What a forest grown from the patched nodes looks like at any point of the grafting loop: the
patched rows and some new ones, a new subtree always with all its rows. -/
structure Grafted (mine old new : UiTree) (nodes : List UiNode) : Prop where
  nodup : (Forest.keys NodeFields.id nodes).Nodup
  kept : ∀ r ∈ Forest.rows NodeFields.id [] (patched mine (diffTrees old new)),
    r ∈ Forest.rows NodeFields.id [] nodes
  sound : ∀ r ∈ Forest.rows NodeFields.id [] nodes,
    r ∈ Forest.rows NodeFields.id [] (patched mine (diffTrees old new)) ∨
      r ∈ new.rows ∧ ¬ Kept old new r.1 r.2.id
  closed : ∀ path n, (path, n) ∈ new.subtrees → n.id ∈ Forest.keys NodeFields.id nodes →
    ¬ Kept old new path n.id →
    ∀ r ∈ Forest.rows NodeFields.id path [n], r ∈ Forest.rows NodeFields.id [] nodes

/-- A pass leaves some of its additions pending, and fewer than it was given when it places one. -/
theorem graftPass_pending (adds : List AddedNode) : ∀ s : GraftPass,
    ∃ left, (graftPass s adds).pending = s.pending ++ left ∧ left.Sublist adds ∧
      ((graftPass s adds).progress = true → s.progress = false → left.length < adds.length) := by
  induction adds with
  | nil => exact fun s => ⟨[], by simp [graftPass]⟩
  | cons add adds ih =>
    intro s
    cases hgraft : graft s.nodes add with
    | present =>
      obtain ⟨left, hleft, hsub, hshort⟩ := ih s
      simp only [graftPass, hgraft]
      exact ⟨left, hleft, hsub.cons _, fun hp hs => Nat.lt_succ_of_lt (hshort hp hs)⟩
    | placed nodes =>
      obtain ⟨left, hleft, hsub, -⟩ := ih { s with nodes, progress := true }
      simp only [graftPass, hgraft]
      exact ⟨left, hleft, hsub.cons _, fun _ _ => Nat.lt_succ_of_le hsub.length_le⟩
    | blocked =>
      obtain ⟨left, hleft, hsub, hshort⟩ := ih { s with pending := s.pending ++ [add] }
      simp only [graftPass, hgraft]
      exact ⟨add :: left, by simp [hleft], hsub.cons_cons _,
        fun hp hs => Nat.succ_lt_succ (hshort hp hs)⟩

section Grafted

variable {mine old new : UiTree} (h : Patchable mine old new)

include h

theorem kept_of_mem_patched {path : List String} {b : NodeFields}
    (hb : (path, b) ∈ Forest.rows NodeFields.id [] (patched mine (diffTrees old new))) :
    Kept old new path b.id := by
  obtain ⟨a, o, n, hra, hro, hrn, hoa, hna, rfl⟩ := (mem_rows_patched h path b).mp hb
  have hid : (received a o n).id = a.id := applyFields_id a _
  rw [hid]
  exact ⟨⟨o, hro, hoa⟩, n, hrn, hna⟩

theorem mem_patched_of_kept {path : List String} {id : String} (hk : Kept old new path id) :
    ∃ b, (path, b) ∈ Forest.rows NodeFields.id [] (patched mine (diffTrees old new)) ∧
      b.id = id := by
  obtain ⟨⟨o, hro, rfl⟩, n, hrn, hno⟩ := hk
  obtain ⟨a, hra, hao⟩ := (h.shape path o.id).mpr ⟨o, hro, rfl⟩
  refine ⟨received a o n, (mem_rows_patched h _ _).mpr
    ⟨a, o, n, hra, hro, hrn, hao.symm, hno.trans hao.symm, rfl⟩, ?_⟩
  exact (applyFields_id a _).trans hao

omit h in
/-- Everything under a node that is not kept is not kept either. -/
theorem not_kept_below (hn : new.ids.Nodup) {path s : List String} {n : UiNode} {b : NodeFields}
    (hs : (path, n) ∈ new.subtrees) (hnk : ¬ Kept old new path n.id)
    (hb : (s, b) ∈ Forest.rows NodeFields.id path [n]) : ¬ Kept old new s b.id := by
  intro hk
  obtain ⟨c, cs⟩ := n
  simp only [Forest.rows_cons, Forest.rows_nil, List.append_nil, List.mem_cons,
    Prod.mk.injEq] at hb
  rcases hb with ⟨rfl, rfl⟩ | hb
  · exact hnk hk
  · have hmem : c.id ∈ s := Forest.subset_path hb List.mem_cons_self
    have up : ∀ {s : List String} {id : String}, Kept old new s id → c.id ∈ s →
        ∃ q, Kept old new q c.id := by
      intro s
      induction s with
      | nil => simp
      | cons x s ih =>
        intro id hk hx
        rcases List.mem_cons.mp hx with rfl | hx
        · exact ⟨s, hk.parent⟩
        · exact ih hk.parent hx
    obtain ⟨q, hq⟩ := up hk hmem
    obtain ⟨d, hrd, hd⟩ := hq.2
    have hrow := Forest.mem_rows_of_mem_subtrees hs
    obtain ⟨rfl, rfl⟩ := Forest.row_unique hn hrd hrow hd
    exact hnk hq

theorem grafted_patched : Grafted mine old new (patched mine (diffTrees old new)) where
  nodup := nodup_patched h
  kept := fun _ hr => hr
  sound := fun _ hr => Or.inl hr
  closed := by
    intro path n hs hk hnk
    obtain ⟨q, b, hrb, hb⟩ := Forest.exists_row_of_key_mem [] hk
    have hkq := kept_of_mem_patched h hrb
    rw [show b.id = n.id from hb] at hkq
    obtain ⟨d, hrd, hd⟩ := hkq.2
    obtain ⟨rfl, rfl⟩ := Forest.row_unique h.nodup_new hrd (Forest.mem_rows_of_mem_subtrees hs) hd
    exact absurd hkq hnk

/-- A new key of the forest is the key of the same row in the new tree. -/
theorem Grafted.row_of_not_kept {nodes : List UiNode} (hg : Grafted mine old new nodes)
    {s : List String} {b : NodeFields} (hb : (s, b) ∈ new.rows) (hnk : ¬ Kept old new s b.id)
    (hk : b.id ∈ Forest.keys NodeFields.id nodes) :
    (s, b) ∈ Forest.rows NodeFields.id [] nodes := by
  obtain ⟨q, c, hrc, hc⟩ := Forest.exists_row_of_key_mem [] hk
  rcases hg.sound _ hrc with hp | ⟨hnew, -⟩
  · have hkq := kept_of_mem_patched h hp
    rw [show c.id = b.id from hc] at hkq
    obtain ⟨d, hrd, hd⟩ := hkq.2
    obtain ⟨rfl, rfl⟩ := Forest.row_unique h.nodup_new hrd hb hd
    exact absurd hkq hnk
  · obtain ⟨rfl, rfl⟩ := Forest.row_unique h.nodup_new hnew hb hc
    exact hrc

/-- A row of the forest lies under the ancestors it has in the new tree. -/
theorem Grafted.path_new {nodes : List UiNode} (hg : Grafted mine old new nodes)
    {q : List String} {b : NodeFields} (hb : (q, b) ∈ Forest.rows NodeFields.id [] nodes) :
    ∃ n, (q, n) ∈ new.rows ∧ n.id = b.id := by
  rcases hg.sound _ hb with hp | ⟨hnew, -⟩
  · exact (kept_of_mem_patched h hp).2
  · exact ⟨b, hnew, rfl⟩

/-- Placing a whole absent new subtree keeps the invariant. -/
theorem Grafted.place {nodes nodes' : List UiNode} (hg : Grafted mine old new nodes)
    {path : List String} {n : UiNode} (hs : (path, n) ∈ new.subtrees)
    (hnk : ¬ Kept old new path n.id) (habs : n.id ∉ Forest.keys NodeFields.id nodes)
    (hrows : (Forest.rows NodeFields.id [] nodes').Perm
      (Forest.rows NodeFields.id [] nodes ++ Forest.rows NodeFields.id path [n])) :
    Grafted mine old new nodes' := by
  have hsub := Forest.rows_subtree_sublist hs
  -- no row of the subtree has a key of the forest: the subtree's root would be one of its ancestors
  have hfresh : ∀ r ∈ Forest.rows NodeFields.id path [n],
      r.2.id ∉ Forest.keys NodeFields.id nodes := by
    rintro ⟨s, b⟩ hr hk
    have hrow := hg.row_of_not_kept h (hsub.subset hr) (not_kept_below h.nodup_new hs hnk hr) hk
    obtain ⟨c, cs⟩ := n
    simp only [Forest.rows_cons, Forest.rows_nil, List.append_nil, List.mem_cons,
      Prod.mk.injEq] at hr
    rcases hr with ⟨rfl, rfl⟩ | hr
    · exact habs hk
    · exact habs ((Forest.path_subset hrow _ (Forest.subset_path hr List.mem_cons_self)).resolve_left
        (by simp))
  refine ⟨?_, ?_, ?_, ?_⟩
  · have hp := hrows.map fun r => NodeFields.id r.2
    rw [Forest.map_key_rows, List.map_append, Forest.map_key_rows] at hp
    refine hp.nodup_iff.mpr (List.nodup_append.mpr ⟨hg.nodup, ?_, ?_⟩)
    · have hn := h.nodup_new
      rw [UiTree.ids, ← Forest.map_key_rows NodeFields.id []] at hn
      exact hn.sublist (hsub.map _)
    · rintro a ha _ hb rfl
      obtain ⟨r, hr, rfl⟩ := List.mem_map.mp hb
      exact hfresh r hr ha
  · intro r hr
    exact hrows.mem_iff.mpr (List.mem_append_left _ (hg.kept r hr))
  · intro r hr
    rcases List.mem_append.mp (hrows.mem_iff.mp hr) with hr | hr
    · exact hg.sound r hr
    · exact Or.inr ⟨hsub.subset hr, not_kept_below h.nodup_new hs hnk hr⟩
  · intro path' n' hs' hk' hnk' r hr
    obtain ⟨q, b, hrb, hb⟩ := Forest.exists_row_of_key_mem [] hk'
    rcases List.mem_append.mp (hrows.mem_iff.mp hrb) with hold | hin
    · exact hrows.mem_iff.mpr (List.mem_append_left _ (hg.closed path' n' hs'
        (hb ▸ Forest.key_mem_of_mem_rows hold) hnk' r hr))
    · -- the smaller subtree is part of the placed one
      refine hrows.mem_iff.mpr (List.mem_append_right _ ?_)
      obtain ⟨rfl, rfl⟩ := Forest.row_unique h.nodup_new (hsub.subset hin)
        (Forest.mem_rows_of_mem_subtrees hs') hb
      obtain ⟨c, cs⟩ := n
      by_cases hroot : n'.id = c.id
      · obtain ⟨rfl, rfl⟩ := Forest.subtree_unique h.nodup_new hs' hs hroot
        exact hr
      · have hq : c.id ∈ q := by
          simp only [Forest.rows_cons, Forest.rows_nil, List.append_nil, List.mem_cons,
            Prod.mk.injEq] at hin
          rcases hin with ⟨-, e⟩ | hin
          · exact absurd (congrArg NodeFields.id e) hroot
          · exact Forest.subset_path hin List.mem_cons_self
        exact Forest.mem_rows_subtree (t := .node c cs) h.nodup_new (by simp) hs
          ((Forest.rows_subtree_sublist hs').subset hr) (Forest.subset_path hr hq)

/-- A recorded addition is a subtree of the new tree that is not kept. -/
theorem not_kept_of_added {add : AddedNode} (ha : add ∈ (diffTrees old new).added) :
    ∃ path, (path, add.node) ∈ new.subtrees ∧ add.parent = path.head? ∧
      ¬ Kept old new path add.node.id := by
  obtain ⟨path, hs, hp, hwhy⟩ := (mem_added_iff h.nodup_old h.nodup_new add).mp ha
  refine ⟨path, hs, hp, ?_⟩
  rintro ⟨⟨o, hro, ho⟩, -⟩
  rcases hwhy with ⟨hno, -⟩ | ⟨q, u, hsu, hu, hne⟩
  · exact hno (ho ▸ Forest.key_mem_of_mem_rows hro)
  · obtain ⟨rfl, -⟩ := Forest.row_unique h.nodup_old hro (Forest.mem_rows_of_mem_subtrees hsu)
      (ho.trans hu.symm)
    exact hne rfl

/-- A new node that is not kept is recorded when it is a root or its parent is kept. -/
theorem added_of_not_kept {path : List String} {n : UiNode} (hs : (path, n) ∈ new.subtrees)
    (hnk : ¬ Kept old new path n.id) (hp : ∀ x q, path = x :: q → Kept old new q x) :
    ⟨n, path.head?⟩ ∈ (diffTrees old new).added := by
  refine (mem_added_iff h.nodup_old h.nodup_new _).mpr ⟨path, hs, rfl, ?_⟩
  have hrow := Forest.mem_rows_of_mem_subtrees hs
  by_cases hid : n.id ∈ old.ids
  · right
    obtain ⟨q, o, hro, ho⟩ := Forest.exists_row_of_key_mem [] hid
    obtain ⟨u, hsu, rfl⟩ := Forest.exists_subtree_of_mem_rows hro
    refine ⟨q, u, hsu, ho, fun hhead => hnk ?_⟩
    -- with the same parent the whole path would agree
    have hpath : q = path := by
      cases path with
      | nil => simpa using hhead
      | cons x path =>
        cases q with
        | nil => simp at hhead
        | cons y q =>
          obtain rfl : y = x := by simpa using hhead
          obtain ⟨⟨c, hrc, hc⟩, -⟩ := hp y path rfl
          obtain ⟨d, hrd, hd⟩ := (Forest.parent_mem_rows hro).resolve_left (by simp)
          rw [(Forest.row_unique h.nodup_old hrc hrd (hc.trans hd.symm)).1]
    exact ⟨⟨u.label, hpath ▸ hro, ho⟩, n.label, hrow, rfl⟩
  · left
    refine ⟨hid, ?_⟩
    cases path with
    | nil => rfl
    | cons x path =>
      obtain ⟨⟨o, hro, ho⟩, d, hrd, hd⟩ := hp x path rfl
      obtain ⟨u, hsu, rfl⟩ := Forest.exists_subtree_of_mem_rows hro
      obtain ⟨v, hsv, rfl⟩ := Forest.exists_subtree_of_mem_rows hrd
      have hb := (index_getElem? h.nodup_old x u path.head?).mpr ⟨path, hsu, ho, rfl⟩
      have ha := (index_getElem? h.nodup_new x v path.head?).mpr ⟨path, hsv, hd, rfl⟩
      simp [embedded, hb, ha]

theorem Grafted.graft_spec {nodes : List UiNode} (hg : Grafted mine old new nodes)
    {add : AddedNode} (ha : add ∈ (diffTrees old new).added) :
    match graft nodes add with
    | .present => add.node.id ∈ Forest.keys NodeFields.id nodes
    | .placed nodes' => Grafted mine old new nodes' ∧
        add.node.id ∈ Forest.keys NodeFields.id nodes' ∧
        ∀ id ∈ Forest.keys NodeFields.id nodes, id ∈ Forest.keys NodeFields.id nodes'
    | .blocked => ∃ p, add.parent = some p ∧ p ∉ Forest.keys NodeFields.id nodes := by
  obtain ⟨path, hs, hp, hnk⟩ := not_kept_of_added h ha
  unfold graft
  split_ifs with hf
  · exact (Forest.find_isSome NodeFields.id _ _).mp hf
  · have habs : add.node.id ∉ Forest.keys NodeFields.id nodes := fun hk =>
      hf ((Forest.find_isSome NodeFields.id _ _).mpr hk)
    have placed : ∀ nodes' : List UiNode, (Forest.rows NodeFields.id [] nodes').Perm
        (Forest.rows NodeFields.id [] nodes ++ Forest.rows NodeFields.id path [add.node]) →
        Grafted mine old new nodes' ∧ add.node.id ∈ Forest.keys NodeFields.id nodes' ∧
          ∀ id ∈ Forest.keys NodeFields.id nodes, id ∈ Forest.keys NodeFields.id nodes' := by
      intro nodes' hrows
      have hkeys := hrows.map fun r => NodeFields.id r.2
      rw [List.map_append, Forest.map_key_rows, Forest.map_key_rows, Forest.map_key_rows] at hkeys
      refine ⟨hg.place h hs hnk habs hrows, ?_, fun id hid =>
        hkeys.mem_iff.mpr (List.mem_append_left _ hid)⟩
      refine hkeys.mem_iff.mpr (List.mem_append_right _ ?_)
      obtain ⟨add, parent⟩ := add
      obtain ⟨c, cs⟩ := add
      simp [UiNode.id]
    cases path with
    | nil =>
      rw [hp]
      refine placed _ ?_
      rw [Forest.rows_append]
    | cons p path =>
      have hrow := Forest.mem_rows_of_mem_subtrees hs
      obtain ⟨c, hrc, hc⟩ := (Forest.parent_mem_rows hrow).resolve_left (by simp)
      have hne : p.isEmpty = false := by
        by_contra he
        have hp' : p = "" := by simpa using he
        exact h.nonempty (hp' ▸ hc ▸ Forest.key_mem_of_mem_rows hrc)
      simp only [hp, List.head?_cons, hne, Bool.false_eq_true, if_false]
      cases hm : Forest.modify NodeFields.id p
          (fun n => RoseTree.node n.label (n.children ++ [add.node])) nodes with
      | some nodes' =>
        obtain ⟨q, b, hrb, hb, hrows⟩ := Forest.rows_modify_push NodeFields.id (p := []) hm
        obtain ⟨n, hrn, hn⟩ := hg.path_new h hrb
        obtain ⟨rfl, -⟩ := Forest.row_unique h.nodup_new hrn hrc (hn.trans (hb.trans hc.symm))
        exact placed nodes' hrows
      | none =>
        refine ⟨p, rfl, fun hk => ?_⟩
        have := (Forest.modify_isSome NodeFields.id p
          (fun n => RoseTree.node n.label (n.children ++ [add.node])) nodes).mpr hk
        simp [hm] at this

/-- One pass keeps the invariant, and leaves an addition out only when its parent was absent. -/
theorem graftPass_spec (adds : List AddedNode) :
    ∀ s : GraftPass, Grafted mine old new s.nodes →
    (∀ add ∈ adds, add ∈ (diffTrees old new).added) →
    Grafted mine old new (graftPass s adds).nodes ∧
    (∀ id ∈ Forest.keys NodeFields.id s.nodes,
      id ∈ Forest.keys NodeFields.id (graftPass s adds).nodes) ∧
    (∀ add ∈ adds, add.node.id ∈ Forest.keys NodeFields.id (graftPass s adds).nodes ∨
      add ∈ (graftPass s adds).pending) ∧
    ((graftPass s adds).progress = false → s.progress = false ∧
      (graftPass s adds).nodes = s.nodes ∧
      ∀ add ∈ (graftPass s adds).pending, add ∈ s.pending ∨
        ∃ p, add.parent = some p ∧ p ∉ Forest.keys NodeFields.id s.nodes) := by
  induction adds with
  | nil =>
    intro s hg _
    exact ⟨hg, fun _ h => h, by simp, fun hp => ⟨hp, rfl, fun add ha => Or.inl ha⟩⟩
  | cons add adds ih =>
    intro s hg hadds
    obtain ⟨hadd, hrest⟩ := List.forall_mem_cons.mp hadds
    have hspec := hg.graft_spec h hadd
    cases hgraft : graft s.nodes add with
    | present =>
      rw [hgraft] at hspec
      obtain ⟨h₁, h₂, h₃, h₄⟩ := ih s hg hrest
      simp only [graftPass, hgraft]
      exact ⟨h₁, h₂, List.forall_mem_cons.mpr ⟨Or.inl (h₂ _ hspec), h₃⟩, h₄⟩
    | placed nodes' =>
      rw [hgraft] at hspec
      obtain ⟨h₁, h₂, h₃, h₄⟩ := ih { s with nodes := nodes', progress := true } hspec.1 hrest
      simp only [graftPass, hgraft]
      refine ⟨h₁, fun id hid => h₂ id (hspec.2.2 id hid), ?_, fun hp => absurd (h₄ hp).1 (by simp)⟩
      exact List.forall_mem_cons.mpr ⟨Or.inl (h₂ _ hspec.2.1), h₃⟩
    | blocked =>
      rw [hgraft] at hspec
      obtain ⟨h₁, h₂, h₃, h₄⟩ := ih { s with pending := s.pending ++ [add] } hg hrest
      simp only [graftPass, hgraft]
      have hpend : add ∈ (graftPass { s with pending := s.pending ++ [add] } adds).pending := by
        obtain ⟨left, hleft, -⟩ := graftPass_pending adds { s with pending := s.pending ++ [add] }
        rw [hleft]
        simp
      refine ⟨h₁, h₂, List.forall_mem_cons.mpr ⟨Or.inr hpend, h₃⟩, fun hp => ?_⟩
      obtain ⟨hs, hn, hb⟩ := h₄ hp
      refine ⟨hs, hn, fun a ha => ?_⟩
      rcases hb a ha with hin | hblocked
      · rcases List.mem_append.mp hin with hin | hin
        · exact Or.inl hin
        · exact Or.inr (List.mem_singleton.mp hin ▸ hspec)
      · exact Or.inr hblocked

/-- The loop ends with every addition placed, or left out for want of its parent. -/
theorem graftLoop_spec (fuel : Nat) : ∀ (nodes : List UiNode) (pending : List AddedNode),
    pending.length ≤ fuel → Grafted mine old new nodes →
    (∀ add ∈ pending, add ∈ (diffTrees old new).added) →
    Grafted mine old new (graftLoop fuel nodes pending).nodes ∧
    (∀ id ∈ Forest.keys NodeFields.id nodes,
      id ∈ Forest.keys NodeFields.id (graftLoop fuel nodes pending).nodes) ∧
    (∀ add ∈ pending, add.node.id ∈ Forest.keys NodeFields.id (graftLoop fuel nodes pending).nodes ∨
      add ∈ (graftLoop fuel nodes pending).pending) ∧
    (∀ add ∈ (graftLoop fuel nodes pending).pending, add ∈ (diffTrees old new).added ∧
      ∃ p, add.parent = some p ∧
        p ∉ Forest.keys NodeFields.id (graftLoop fuel nodes pending).nodes) := by
  induction fuel with
  | zero =>
    intro nodes pending hlen hg _
    obtain rfl : pending = [] := List.length_eq_zero_iff.mp (Nat.le_zero.mp hlen)
    exact ⟨hg, fun _ h => h, by simp, by simp [graftLoop]⟩
  | succ fuel ih =>
    intro nodes pending hlen hg hadds
    obtain ⟨h₁, h₂, h₃, h₄⟩ := graftPass_spec h pending { nodes } hg hadds
    obtain ⟨left, hleft, hsub, hshort⟩ := graftPass_pending pending { nodes }
    rw [List.nil_append] at hleft
    rw [graftLoop]
    split_ifs with hgo
    · -- another round: the pending list has become shorter
      have hprog : (graftPass { nodes } pending).progress = true := by
        simp only [Bool.and_eq_true] at hgo
        exact hgo.1
      have hlt := hshort hprog rfl
      obtain ⟨k₁, k₂, k₃, k₄⟩ := ih (graftPass { nodes } pending).nodes
        (graftPass { nodes } pending).pending (by rw [hleft]; omega) h₁
        (by rw [hleft]; exact fun add ha => hadds add (hsub.subset ha))
      refine ⟨k₁, fun id hid => k₂ id (h₂ id hid), fun add ha => ?_, k₄⟩
      rcases h₃ add ha with hk | hk
      · exact Or.inl (k₂ _ hk)
      · exact k₃ add hk
    · refine ⟨h₁, h₂, h₃, fun add ha => ?_⟩
      have hprog : (graftPass { nodes } pending).progress = false := by
        by_contra hp
        refine hgo ?_
        have hne : (graftPass { nodes } pending).pending ≠ [] := List.ne_nil_of_mem ha
        simp [Bool.eq_true_of_not_eq_false hp, hne]
      obtain ⟨-, hsame, hblocked⟩ := h₄ hprog
      refine ⟨hadds add (hsub.subset (hleft ▸ ha)), ?_⟩
      rw [hsame]
      exact (hblocked add ha).resolve_left (by simp)

end Grafted

end GpuiAgent
