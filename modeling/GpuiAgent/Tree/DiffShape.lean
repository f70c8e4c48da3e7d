import GpuiAgent.Framework.Run
import GpuiAgent.Tree.DiffInverse

namespace GpuiAgent

open Framework NodeFields

/-- The parent id of the node with a given id, when there is such a node. -/
def UiTree.parentAt (t : UiTree) (id : String) : Option (Option String) :=
  (t.findWithParent id).map Prod.snd

/-- Two trees have the same ids, and each id the same parent in both. -/
structure SameShape (t u : UiTree) : Prop where
  ids : t.ids.Perm u.ids
  parents : ∀ id, t.parentAt id = u.parentAt id

theorem UiTree.parentAt_eq_some {t : UiTree} (hn : t.ids.Nodup) (id : String)
    (parent : Option String) :
    t.parentAt id = some parent ↔ ∃ path a, (path, a) ∈ t.rows ∧ a.id = id ∧ path.head? = parent := by
  have hnode : t.parentAt id = (t.nodeAt id).map Prod.snd := by
    simp [UiTree.parentAt, UiTree.nodeAt, Function.comp_def]
  simp only [hnode, Option.map_eq_some_iff, Prod.exists, exists_eq_right, nodeAt_eq_some hn]
  exact exists_comm

theorem SameShape.symm {t u : UiTree} (h : SameShape t u) : SameShape u t :=
  ⟨h.ids.symm, fun id => (h.parents id).symm⟩

/-- Trees of one shape have the same ids under the same ancestors. -/
theorem SameShape.mem_rows {t u : UiTree} (h : SameShape t u) (ht : t.ids.Nodup)
    (hu : u.ids.Nodup) {path : List String} {a : NodeFields} (ha : (path, a) ∈ t.rows) :
    ∃ b, (path, b) ∈ u.rows ∧ b.id = a.id := by
  refine Forest.mem_rows_of_parents hu (fun {q b} hb => ?_) ha
  have hparent := (UiTree.parentAt_eq_some ht b.id q.head?).mpr ⟨q, b, hb, rfl, rfl⟩
  rw [h.parents] at hparent
  exact (UiTree.parentAt_eq_some hu b.id q.head?).mp hparent

theorem sameShape_of_mem_rows {t u : UiTree} (ht : t.ids.Nodup) (hu : u.ids.Nodup)
    (hrows : ∀ path id, (∃ a, (path, a) ∈ t.rows ∧ a.id = id) ↔
      ∃ b, (path, b) ∈ u.rows ∧ b.id = id) : SameShape t u where
  ids := by
    have hids : ∀ (v : UiTree) (id : String),
        id ∈ v.ids ↔ ∃ path, ∃ a, (path, a) ∈ v.rows ∧ a.id = id := by
      intro v id
      constructor
      · exact fun hid => Forest.exists_row_of_key_mem [] hid
      · rintro ⟨path, a, ha, rfl⟩
        exact Forest.key_mem_of_mem_rows ha
    refine (List.perm_ext_iff_of_nodup ht hu).mpr fun id => ?_
    simp only [hids, hrows]
  parents := fun id => by
    refine Option.ext fun parent => ?_
    simp only [UiTree.parentAt_eq_some ht, UiTree.parentAt_eq_some hu]
    constructor
    · rintro ⟨path, a, ha, hid, hp⟩
      obtain ⟨b, hb, hb'⟩ := (hrows path id).mp ⟨a, ha, hid⟩
      exact ⟨path, b, hb, hb', hp⟩
    · rintro ⟨path, b, hb, hid, hp⟩
      obtain ⟨a, ha, ha'⟩ := (hrows path id).mpr ⟨b, hb, hid⟩
      exact ⟨path, a, ha, ha', hp⟩

theorem sameShape_of_map_rows {t u : UiTree} (ht : t.ids.Nodup) (hu : u.ids.Nodup)
    (hrows : t.rows.map (fun r => (r.1, r.2.id)) = u.rows.map fun r => (r.1, r.2.id)) :
    SameShape t u := by
  have hmem : ∀ (v : UiTree) (path : List String) (id : String),
      (∃ a, (path, a) ∈ v.rows ∧ a.id = id) ↔ (path, id) ∈ v.rows.map fun r => (r.1, r.2.id) := by
    simp [List.mem_map]
  exact sameShape_of_mem_rows ht hu fun path id => by rw [hmem, hmem, hrows]

theorem patchable_of_sameShape {mine old new : UiTree} (hmine : SameShape mine old)
    (hold : old.ids.Nodup) (hnew : new.ids.Nodup) (hne : "" ∉ new.ids) :
    Patchable mine old new where
  nodup_mine := hmine.ids.nodup_iff.mpr hold
  nodup_old := hold
  nodup_new := hnew
  nonempty := hne
  shape := by
    have hm := hmine.ids.nodup_iff.mpr hold
    intro path id
    constructor
    · rintro ⟨a, ha, rfl⟩
      exact hmine.mem_rows hm hold ha
    · rintro ⟨o, ho, rfl⟩
      exact hmine.symm.mem_rows hold hm ho

/-- One round of `while !pending.is_empty() && progress`. -/
def graftRound (s : GraftPass) : Option GraftPass :=
  if !s.pending.isEmpty && s.progress then some (graftPass { nodes := s.nodes } s.pending) else none

/-- From any nodes and any additions the loop comes to an end, and as many rounds as there are
additions reach it. -/
theorem ends_graftRound (fuel : Nat) : ∀ (nodes : List UiNode) (pending : List AddedNode),
    pending.length ≤ fuel → ∃ s, Ends graftRound { nodes, pending, progress := true } s ∧
      s.nodes = (graftLoop fuel nodes pending).nodes ∧
      s.pending = (graftLoop fuel nodes pending).pending := by
  induction fuel with
  | zero =>
    intro nodes pending hlen
    obtain rfl : pending = [] := List.length_eq_zero_iff.mp (Nat.le_zero.mp hlen)
    exact ⟨_, .stop rfl, rfl, rfl⟩
  | succ fuel ih =>
    intro nodes pending hlen
    cases pending with
    | nil => exact ⟨_, .stop rfl, rfl, rfl⟩
    | cons add adds =>
      obtain ⟨left, hleft, -, hshort⟩ := graftPass_pending (add :: adds) { nodes }
      rw [List.nil_append] at hleft
      have hround : graftRound { nodes, pending := add :: adds, progress := true } =
          some (graftPass { nodes } (add :: adds)) := rfl
      rw [graftLoop]
      split_ifs with hgo
      · obtain ⟨hprog, -⟩ : (graftPass { nodes } (add :: adds)).progress = true ∧ _ :=
          Bool.and_eq_true_iff.mp hgo
        have hlt := hshort hprog rfl
        obtain ⟨s, hs, hn, hp⟩ := ih (graftPass { nodes } (add :: adds)).nodes
          (graftPass { nodes } (add :: adds)).pending (by rw [hleft]; omega)
        refine ⟨s, .next hround ?_, hn, hp⟩
        rw [← hprog] at hs
        exact hs
      · refine ⟨_, .next hround (.stop ?_), rfl, rfl⟩
        rw [graftRound, if_neg]
        rwa [Bool.and_comm]

/-- Whatever fields the client holds, the grafting loop comes to an end with nothing pending and
leaves the new tree's ids, each once and under its parent there. -/
theorem applyDiff_sameShape {mine old new : UiTree} (hold : old.ids.Nodup) (hnew : new.ids.Nodup)
    (hne : "" ∉ new.ids) (hmine : SameShape mine old) :
    (∃ s, Ends graftRound
        { nodes := patched mine (diffTrees old new), pending := (diffTrees old new).added,
          progress := true } s ∧
      s.pending = [] ∧ s.nodes = (applyDiff mine (diffTrees old new)).nodes) ∧
    (applyDiff mine (diffTrees old new)).ids.Nodup ∧
    SameShape (applyDiff mine (diffTrees old new)) new := by
  have h := patchable_of_sameShape hmine hold hnew hne
  refine ⟨?_, nodup_applyDiff h, sameShape_of_mem_rows (nodup_applyDiff h) hnew (applyDiff_shape h)⟩
  obtain ⟨s, hs, hnodes, hpending⟩ := ends_graftRound (diffTrees old new).added.length
    (patched mine (diffTrees old new)) (diffTrees old new).added le_rfl
  exact ⟨s, hs, hpending.trans (grafted_pending h), hnodes⟩

section Runs

/-- A note inside an item of a group, with a panel beside the list. -/
def noteNested : UiTree := { draftFilled with
  nodes := [(UiNode.new "list" Role.LIST "").withChild
      ((UiNode.new "group" Role.LIST "").withChild
        ((UiNode.new "item" Role.LIST_ITEM "A").withChild (UiNode.new "note" Role.NOTE "N"))),
    UiNode.new "panel" Role.PAGE ""] }

/-- The same nodes under other names. -/
def noteRenamed : UiTree := { draftFilled with
  nodes := [(UiNode.new "list" Role.LIST "Mine").withChild
      ((UiNode.new "group" Role.LIST "").withChild
        ((UiNode.new "item" Role.BUTTON "").withChild (UiNode.new "note" Role.NOTE "Old"))),
    (UiNode.new "panel" Role.PAGE "").withValue "open"] }

/-- The list and its group are gone. The note sits in a new box of the panel, and the item, which
has a new part, inside the note. -/
def noteTurned : UiTree := { draftFilled with
  nodes := [(UiNode.new "panel" Role.PAGE "").withChild
    ((UiNode.new "box" Role.LIST "").withChild
      ((UiNode.new "note" Role.NOTE "N").withChild
        ((UiNode.new "item" Role.LIST_ITEM "A").withChild (UiNode.new "part" Role.NOTE "P"))))] }

theorem applyDiff_sameShape_turned :
    SameShape (applyDiff noteRenamed (diffTrees noteNested noteTurned)) noteTurned :=
  (applyDiff_sameShape (by decide) (by decide) (by decide)
    (sameShape_of_map_rows (by decide) (by decide) (by decide))).2.2

end Runs

end GpuiAgent
