import GpuiAgent.Framework.Indexed
import GpuiAgent.Framework.Sibling
import GpuiAgent.Policy.ActionSpace
import GpuiAgent.Tree.CompactLines

namespace GpuiAgent

open Framework Framework.RoseTree Framework.Forest

/-- The action space offers the visible nodes that are enabled with all their ancestors. -/
theorem viableNodes_eq (tree : UiTree) :
    viableNodes none true tree.nodes =
      (tree.nodeRows.filter (Upheld fun a => a.enabled && a.visible)).map
        fun row => (row.1.head?, row.2) := by
  have hnodes (F : Forest NodeFields) : ∀ path : List NodeFields,
      viableNodes path.head? true F =
        (upheld (fun a => a.enabled && a.visible) path F).map (fun row => (row.1.head?, row.2)) ∧
      ∀ parent, viableNodes parent false F = [] := by
    induction F using Forest.induction with
    | nil => exact fun _ => ⟨rfl, fun _ => rfl⟩
    | cons a cs ts hc ht =>
      intro path
      constructor
      · rw [upheld_cons, viableNodes, viableNode, List.map_append,
          (ht path).1, Bool.true_and]
        cases hviable : a.enabled && a.visible with
        | true =>
          have hbelow := (hc (a :: path)).1
          rw [List.head?_cons] at hbelow
          rw [if_pos rfl, if_pos rfl, hbelow]
          rfl
        | false =>
          rw [(hc path).2]
          rfl
      · intro parent
        rw [viableNodes, viableNode, (ht path).2]
        rw [Bool.false_and, Bool.false_and, (hc path).2]
        rfl
  rw [UiTree.nodeRows, ← upheld_eq_filter tree.nodes (by simp)]
  exact (hnodes tree.nodes []).1

/-- What the role of a node, and that of its parent, admits. -/
def RoleAdmits (kind : ActionKind) (parent : Option NodeFields) (node : NodeFields) : Prop :=
  match kind with
  | .click => node.role ∈ ["button", "link", "tab", "checkbox", "switch"] ∨
      (node.role = "listitem" ∧ ∃ p, parent = some p ∧ p.role = "navigation")
  | .type | .setValue | .key => node.role = "textbox"
  | _ => False

/-- The node is enabled and visible, and so are all its ancestors. -/
def Viable (row : List NodeFields × NodeFields) : Prop :=
  ∀ b ∈ row.2 :: row.1, b.enabled = true ∧ b.visible = true

instance : DecidablePred Viable := fun _ => inferInstanceAs (Decidable (∀ _ ∈ _, _))

section NodeActions

variable {parent : Option NodeFields} {node : NodeFields} {a b : OfferedAction} {kind : ActionKind}

theorem clickable_iff : clickable parent node = true ↔ RoleAdmits .click parent node := by
  rw [clickable, Bool.or_eq_true, Bool.and_eq_true, List.contains_iff_mem, decide_eq_true_eq,
    decide_eq_true_eq, Option.map_eq_some_iff]
  rfl

theorem mem_nodeActions : a ∈ nodeActions parent node ↔
    (RoleAdmits .click parent node ∧
      a = nodeAction .click (.forTarget .click node.id) node.name parent node) ∨
    (node.role = "textbox" ∧
      (a = nodeAction .type (.forTarget .type node.id) node.name parent node ∨
        a = nodeAction .setValue (.forTarget .setValue node.id) node.name parent node ∨
        a = nodeAction .key (.forKey node.id "Enter") (node.name ++ " submit") parent node)) := by
  simp only [nodeActions, List.mem_append, List.mem_ite_nil_right, List.mem_cons, List.not_mem_nil,
    or_false, clickable_iff]
  rfl

theorem nodeActions_spec (h : a ∈ nodeActions parent node) :
    a.kind.nodeBound = true ∧ a.target = some node.id ∧ RoleAdmits a.kind parent node := by
  rcases mem_nodeActions.mp h with ⟨hclick, rfl⟩ | ⟨htext, rfl | rfl | rfl⟩
  · exact ⟨rfl, rfl, hclick⟩
  all_goals exact ⟨rfl, rfl, htext⟩

theorem exists_nodeAction (h : RoleAdmits kind parent node) :
    ∃ a ∈ nodeActions parent node, a.kind = kind := by
  cases kind with
  | click => exact ⟨_, mem_nodeActions.mpr (.inl ⟨h, rfl⟩), rfl⟩
  | type => exact ⟨_, mem_nodeActions.mpr (.inr ⟨h, .inl rfl⟩), rfl⟩
  | setValue => exact ⟨_, mem_nodeActions.mpr (.inr ⟨h, .inr (.inl rfl)⟩), rfl⟩
  | key => exact ⟨_, mem_nodeActions.mpr (.inr ⟨h, .inr (.inr rfl)⟩), rfl⟩
  | _ => exact h.elim

/-- A node offers each kind once. -/
theorem nodeActions_unique (ha : a ∈ nodeActions parent node) (hb : b ∈ nodeActions parent node)
    (h : a.kind = b.kind) : a = b := by
  rcases mem_nodeActions.mp ha with ⟨-, rfl⟩ | ⟨-, rfl | rfl | rfl⟩ <;>
    rcases mem_nodeActions.mp hb with ⟨-, rfl⟩ | ⟨-, rfl | rfl | rfl⟩ <;>
    first | rfl | cases h

end NodeActions

section Rows

variable {tree : UiTree}

theorem UiTree.map_id_nodeRows (tree : UiTree) :
    tree.nodeRows.map (fun row => row.2.id) = tree.ids := by
  have hlabels := congrArg (List.map NodeFields.id) (map_snd_rows_eq_labels id [] tree.nodes)
  have hkeys := congrArg (List.map NodeFields.id)
    (map_snd_rows_eq_labels NodeFields.id [] tree.nodes)
  rw [← hlabels, List.map_map, List.map_map] at hkeys
  exact hkeys.symm.trans (map_key_rows NodeFields.id [] tree.nodes)

theorem UiTree.nodeRow_unique (hn : tree.ids.Nodup) {row row' : List NodeFields × NodeFields}
    (h : row ∈ tree.nodeRows) (h' : row' ∈ tree.nodeRows) (hid : row.2.id = row'.2.id) :
    row = row' := by
  rw [← tree.map_id_nodeRows] at hn
  exact List.inj_on_of_nodup_map hn h h' hid

theorem upheld_viable_iff (row : List NodeFields × NodeFields) :
    Upheld (fun a => a.enabled && a.visible) row = true ↔ Viable row := by
  simp only [upheld_iff, Viable, List.forall_mem_cons, Bool.and_eq_true]

theorem mem_viableNodes {parent : Option NodeFields} {node : NodeFields} :
    (parent, node) ∈ viableNodes none true tree.nodes ↔
      ∃ row ∈ tree.nodeRows, Viable row ∧ row.1.head? = parent ∧ row.2 = node := by
  rw [viableNodes_eq, List.mem_map]
  simp only [List.mem_filter, upheld_viable_iff, Prod.mk.injEq, and_assoc]

end Rows

namespace ActionSpace

/-- The space has an offer of this kind on a node, under the id of that kind and node. -/
def OfferedOn (space : ActionSpace) (kind : ActionKind) (node : NodeFields) : Prop :=
  ∃ a ∈ space.offered, a.kind = kind ∧ a.target = some node.id ∧
    a.id = ActionId.of kind (some node.id)

/-- The same offers in the same order, and the same texts. -/
structure Same (space space' : ActionSpace) : Prop where
  rev : space.rev = space'.rev
  actions : space.actions.toList = space'.actions.toList
  texts : space.texts = space'.texts

section FromTree

variable {lex : Lexicon} {tree : UiTree} {keybindings : List KeybindingInfo}
  {invokes : List OfferedInvoke} {a : OfferedAction}

/-- A node-bound offer is made by a viable node of the tree. -/
theorem row_of_offered (h : a ∈ (fromTree lex tree keybindings invokes).offered)
    (hbound : a.kind.nodeBound = true) :
    ∃ row ∈ tree.nodeRows, Viable row ∧ a ∈ nodeActions row.1.head? row.2 := by
  have hmem := List.mem_of_find?_eq_some (get_fromTree.symm.trans (mem_offered_iff.mp h))
  simp only [offers, List.mem_append, List.mem_flatMap, List.mem_map, List.mem_cons,
    List.not_mem_nil, or_false] at hmem
  rcases hmem with ((⟨row, hrow, hmem⟩ | ⟨kb, -, rfl⟩) | ⟨invoke, -, rfl⟩) | rfl | rfl | rfl
  · obtain ⟨row', hrow', hviable, hparent, hnode⟩ := mem_viableNodes.mp hrow
    exact ⟨row', hrow', hviable, hparent ▸ hnode ▸ hmem⟩
  all_goals cases hbound

/-- What a viable node offers is in the space, under the same id. -/
theorem offeredOn_of_mem {row : List NodeFields × NodeFields} (hrow : row ∈ tree.nodeRows)
    (hviable : Viable row) (ha : a ∈ nodeActions row.1.head? row.2) :
    OfferedOn (fromTree lex tree keybindings invokes) a.kind row.2 := by
  have hoffers : a ∈ offers tree keybindings invokes := by
    simp only [offers, List.mem_append, List.mem_flatMap]
    exact .inl (.inl (.inl ⟨_, mem_viableNodes.mpr ⟨row, hrow, hviable, rfl, rfl⟩, ha⟩))
  obtain ⟨-, htarget, -⟩ := nodeActions_spec ha
  have hid : a.id = ActionId.of a.kind (some row.2.id) :=
    htarget ▸ (nodeActions_wellFormed ha).id_eq
  -- the space keeps the first offer made under the id, and the id tells kind and target
  have hsome : ((offers tree keybindings invokes).find? fun b => b.id = a.id).isSome :=
    List.find?_isSome.mpr ⟨a, hoffers, decide_eq_true rfl⟩
  obtain ⟨b, hb⟩ := Option.isSome_iff_exists.mp hsome
  have hbid : b.id = a.id := by simpa using List.find?_some hb
  have hbof := (offers_wellFormed (List.mem_of_find?_eq_some hb)).id_eq
  have hget : (fromTree lex tree keybindings invokes).get b.id = some b := by
    rw [get_fromTree, hbid]
    exact hb
  have hsame : ActionId.of b.kind b.target = ActionId.of a.kind (some row.2.id) :=
    hbof.symm.trans (hbid.trans hid)
  cases htarget' : b.target with
  | none =>
    rw [htarget'] at hsame
    have hcontrol := ActionId.of_eq_asStr hsame.symm
    cases hcontrol.2
  | some target =>
    rw [htarget'] at hsame
    obtain ⟨hkind, rfl⟩ := ActionId.of_some_inj hsame
    exact ⟨b, mem_offered_iff.mpr hget, hkind, htarget', hbid.trans hid⟩

/-- With unique ids a node is offered a kind exactly where it is viable and its role admits it. -/
theorem offeredOn_iff (hn : tree.ids.Nodup) {row : List NodeFields × NodeFields}
    (hrow : row ∈ tree.nodeRows) {kind : ActionKind} (hbound : kind.nodeBound = true) :
    OfferedOn (fromTree lex tree keybindings invokes) kind row.2 ↔
      Viable row ∧ RoleAdmits kind row.1.head? row.2 := by
  constructor
  · rintro ⟨a, ha, rfl, htarget, -⟩
    obtain ⟨row', hrow', hviable, hmem⟩ := row_of_offered ha hbound
    obtain ⟨-, htarget', hadmits⟩ := nodeActions_spec hmem
    have hid := Option.some_inj.mp (htarget.symm.trans htarget')
    obtain rfl := UiTree.nodeRow_unique hn hrow hrow' hid
    exact ⟨hviable, hadmits⟩
  · rintro ⟨hviable, hadmits⟩
    obtain ⟨a, ha, rfl⟩ := exists_nodeAction hadmits
    exact offeredOn_of_mem hrow hviable ha

end FromTree

end ActionSpace

section Order

/-- The texts are compared field by field. -/
theorem compare_nodeText : (compare : NodeText → NodeText → Ordering) =
    compareLex (compareOn NodeText.label)
      (compareLex (compareOn NodeText.value) (compareOn NodeText.role)) := by
  funext a b
  change instOrdNodeText.ord a b = _
  cases a
  cases b
  simp [instOrdNodeText.ord, compareLex, compareOn]

instance : Std.TransOrd NodeText := by
  unfold Std.TransOrd
  rw [compare_nodeText]
  infer_instance

theorem eq_of_compare_nodeText {a b : NodeText} (h : compare a b = .eq) : a = b := by
  rw [compare_nodeText, compareLex_eq_eq, compareLex_eq_eq] at h
  obtain ⟨hlabel, hvalue, hrole⟩ := h
  have hlabel := Std.LawfulEqOrd.eq_of_compare hlabel
  have hvalue := Std.LawfulEqOrd.eq_of_compare hvalue
  have hrole := Std.LawfulEqOrd.eq_of_compare hrole
  cases a
  cases b
  simp_all

/-- Sorting forgets the order in which the texts were collected. -/
theorem sortedTexts_perm {texts texts' : List NodeText} (h : texts.Perm texts') :
    texts.insertionSort (fun a b => (compare a b).isLE) =
      texts'.insertionSort fun a b => (compare a b).isLE := by
  let le : NodeText → NodeText → Prop := fun a b => (compare a b).isLE
  have htotal : Std.Total le := by
    constructor
    intro a b
    by_cases hab : (compare a b).isLE
    · exact .inl hab
    · exact .inr (Ordering.isLE_of_eq_lt (Std.OrientedCmp.lt_of_not_isLE hab))
  have htrans : IsTrans NodeText le := ⟨fun a b c hab hbc => Std.TransCmp.isLE_trans hab hbc⟩
  have hperm : (texts.insertionSort le).Perm (texts'.insertionSort le) :=
    (List.perm_insertionSort le texts).trans (h.trans (List.perm_insertionSort le texts').symm)
  refine List.Perm.eq_of_pairwise (fun a b _ _ hab hba => ?_) (List.pairwise_insertionSort le texts)
    (List.pairwise_insertionSort le texts') hperm
  exact eq_of_compare_nodeText (Std.OrientedCmp.isLE_antisymm hab hba)

end Order

namespace ActionSpace

section Reordered

variable {lex : Lexicon} {tree : UiTree} {keybindings : List KeybindingInfo}
  {invokes : List OfferedInvoke} {nodes : List UiNode}

theorem viableNodes_perm (h : Reordered tree.nodes nodes) :
    (viableNodes none true tree.nodes).Perm (viableNodes none true nodes) := by
  rw [viableNodes_eq, viableNodes_eq { tree with nodes }]
  exact ((h.rows_perm []).filter _).map _

/-- With unique ids, an id is offered by one node and for one kind. -/
theorem nodeOffer_unique (hn : tree.ids.Nodup) {a b : OfferedAction}
    (ha : a ∈ (viableNodes none true tree.nodes).flatMap fun row => nodeActions row.1 row.2)
    (hb : b ∈ (viableNodes none true tree.nodes).flatMap fun row => nodeActions row.1 row.2)
    (h : a.id = b.id) : a = b := by
  obtain ⟨⟨p, node⟩, hrow, ha⟩ := List.mem_flatMap.mp ha
  obtain ⟨⟨p', node'⟩, hrow', hb⟩ := List.mem_flatMap.mp hb
  obtain ⟨row, hmem, -, rfl, rfl⟩ := mem_viableNodes.mp hrow
  obtain ⟨row', hmem', -, rfl, rfl⟩ := mem_viableNodes.mp hrow'
  rw [(nodeActions_wellFormed ha).id_eq, (nodeActions_wellFormed hb).id_eq,
    (nodeActions_spec ha).2.1, (nodeActions_spec hb).2.1] at h
  obtain ⟨hkind, hid⟩ := ActionId.of_some_inj h
  obtain rfl := UiTree.nodeRow_unique hn hmem hmem' hid
  exact nodeActions_unique ha hb hkind

/-- The order of siblings makes no difference to the space. -/
theorem fromTree_reordered (hn : tree.ids.Nodup) (h : Reordered tree.nodes nodes) :
    (fromTree lex tree keybindings invokes).Same
      (fromTree lex { tree with nodes } keybindings invokes) where
  rev := rfl
  actions := by
    apply toList_eq_of_getElem?_eq
    intro id
    have hperm := (viableNodes_perm h).flatMap_right fun row => nodeActions row.1 row.2
    have hfind := find?_eq_of_perm (p := fun a => decide (a.id = id)) hperm fun a ha b hb hai hbi =>
      nodeOffer_unique hn ha hb ((of_decide_eq_true hai).trans (of_decide_eq_true hbi).symm)
    have hget := @get_fromTree id lex tree keybindings invokes
    have hget' := @get_fromTree id lex { tree with nodes } keybindings invokes
    simp only [get, offers, List.find?_append] at hget hget'
    rw [hget, hget', hfind]
  texts := sortedTexts_perm ((viableNodes_perm h).map _)

/-- The space offers exactly what the viable nodes and their roles admit, and the order of siblings
makes no difference to it. -/
theorem fromTree_exact (lex : Lexicon) (keybindings : List KeybindingInfo)
    (invokes : List OfferedInvoke) (hn : tree.ids.Nodup) :
    (∀ row ∈ tree.nodeRows, ∀ kind : ActionKind, kind.nodeBound = true →
      (OfferedOn (fromTree lex tree keybindings invokes) kind row.2 ↔
        Viable row ∧ RoleAdmits kind row.1.head? row.2)) ∧
    (∀ a ∈ (fromTree lex tree keybindings invokes).offered, a.kind.nodeBound = true →
      ∃ row ∈ tree.nodeRows, a.target = some row.2.id) ∧
    ∀ nodes, Reordered tree.nodes nodes →
      (fromTree lex tree keybindings invokes).Same
        (fromTree lex { tree with nodes } keybindings invokes) := by
  refine ⟨fun row hrow kind hbound => offeredOn_iff hn hrow hbound, fun a ha hbound => ?_,
    fun nodes h => fromTree_reordered hn h⟩
  obtain ⟨row, hrow, -, hmem⟩ := row_of_offered ha hbound
  exact ⟨row, hrow, (nodeActions_spec hmem).2.1⟩

end Reordered

def settingsItem : NodeFields := { id := "nav-settings", role := "listitem", name := "Settings" }

def saveButton : NodeFields := { id := "save", role := "button", name := "Save" }

def sidebar : NodeFields := { id := "nav", role := "navigation", name := "Menu" }

def closedForm : NodeFields := { id := "form", role := "page", name := "Form", enabled := false }

/-- A menu beside a form that is disabled. -/
def menuTree : UiTree where
  app := "todo"
  platform := .headless
  ready := true
  nodes := [node sidebar [node settingsItem []], node closedForm [node saveButton []]]

theorem fromTree_exact_menu :
    OfferedOn (fromTree .ascii menuTree [] []) .click settingsItem ∧
      ¬ OfferedOn (fromTree .ascii menuTree [] []) .click saveButton := by
  have hexact := (@fromTree_exact menuTree .ascii [] [] (by decide)).1
  have hitem : ([sidebar], settingsItem) ∈ menuTree.nodeRows := by decide
  have hsave : ([closedForm], saveButton) ∈ menuTree.nodeRows := by decide
  constructor
  · exact (hexact _ hitem .click rfl).mpr ⟨by decide, Or.inr ⟨rfl, sidebar, rfl, rfl⟩⟩
  · intro h
    have hviable := ((hexact _ hsave .click rfl).mp h).1 closedForm (by simp)
    cases hviable.1

end ActionSpace

end GpuiAgent
