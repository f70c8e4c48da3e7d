import GpuiAgent.Host.FingerprintGate
import GpuiAgent.Policy.Offered
import GpuiAgent.Policy.Runner
import GpuiAgent.Tree.DiffInverse

namespace GpuiAgent

open Framework Framework.RoseTree Framework.Forest

section Lookup

variable {tree : UiTree} {row : List NodeFields × NodeFields}

theorem UiTree.mem_rows_of_nodeRow (h : row ∈ tree.nodeRows) :
    (row.1.map NodeFields.id, row.2) ∈ tree.rows := by
  have hrows : tree.rows = tree.nodeRows.map fun row => (row.1.map NodeFields.id, row.2) :=
    rows_eq_map_rows_id NodeFields.id tree.nodes []
  rw [hrows]
  exact List.mem_map_of_mem h

/-- With unique ids the point lookup and the bulk map take a node under its own parent. -/
theorem fingerprint_of_nodeRow (hn : tree.ids.Nodup) (h : row ∈ tree.nodeRows) :
    tree.fingerprintOf row.2.id =
        some (UiNode.fingerprint row.2 (row.1.head?.map NodeFields.id)) ∧
      tree.fingerprintMap[row.2.id]? =
        some (UiNode.fingerprint row.2 (row.1.head?.map NodeFields.id)) := by
  have hrow := UiTree.mem_rows_of_nodeRow h
  constructor
  · have hnode := (UiTree.nodeAt_eq_some hn row.2.id row.2 _).mpr ⟨_, hrow, rfl, rfl⟩
    have hof : tree.fingerprintOf row.2.id =
        (tree.nodeAt row.2.id).map fun r => UiNode.fingerprint r.1 r.2 := by
      rw [UiTree.fingerprintOf, UiTree.nodeAt, Option.map_map]
      rfl
    rw [hof, hnode, Option.map_some, List.head?_map]
  · obtain ⟨n, hsub, hlabel⟩ := exists_subtree_of_mem_rows hrow
    rw [← tree.map_id_subtrees] at hn
    rw [UiTree.fingerprintMap, getElem?_foldl_insert hn]
    refine .inl ⟨_, hsub, congrArg NodeFields.id hlabel, ?_⟩
    rw [hlabel, List.head?_map]

end Lookup

/-- The fingerprint of an offer is the tree's own for the target, and an op made from the offer
passes the gate of a host that shows the tree. -/
structure FreshOffer (tree : UiTree) (a : OfferedAction) (target : String) (fp : UInt64) : Prop where
  names : a.target = some target
  carries : a.fingerprint = some fp
  point : tree.fingerprintOf target = some fp
  bulk : tree.fingerprintMap[target]? = some fp
  gate : fingerprintRefusal tree target fp = none
  gated : ∀ {σ : Type} (d : PolicyDecision) (payload : Option String) (delivery : DeliveryMode)
    (clause : String) (keybindings : List KeybindingInfo)
    (invokeArgs : σ → String → String → Except String Json × σ) (world : σ) (op : Op),
    d.kind = a.kind →
    (opForDecision d a payload delivery clause keybindings invokeArgs world).1 = .ok op →
      op.fingerprintGate = some (target, fp)
  served : ∀ {σ : Type} (env : Env) (host : AgentHost σ) (polls : Nat) (s : σ) (cache : TreeCache)
    (req : Request) (token : Option String) (nonce : Option (List UInt8)),
    authorizeRequest env req token nonce = .ok () →
    req.op.fingerprintGate = some (target, fp) → (cache.snapshot host s).1 = tree →
      handleRequestCached env host polls s cache req token nonce =
        ((dispatchResponse host s req.id req.op).1, (dispatchResponse host s req.id req.op).2,
          (cache.snapshot host s).2)

/-- The op of a node-bound offer is gated with the fingerprint of the offer. -/
theorem fingerprintGate_opForDecision {σ : Type} {d : PolicyDecision} {a : OfferedAction}
    {payload : Option String} {delivery : DeliveryMode} {clause : String}
    {keybindings : List KeybindingInfo}
    {invokeArgs : σ → String → String → Except String Json × σ} {world : σ} {op : Op}
    {target : String} {fp : UInt64} (htarget : a.target = some target)
    (hfp : a.fingerprint = some fp) (hbound : d.kind.nodeBound = true)
    (h : (opForDecision d a payload delivery clause keybindings invokeArgs world).1 = .ok op) :
    op.fingerprintGate = some (target, fp) := by
  unfold opForDecision at h
  rw [htarget, hfp] at h
  cases hkind : d.kind with
  | click =>
    rw [hkind] at h
    obtain rfl := Except.ok.inj h
    rfl
  | type =>
    rw [hkind] at h
    obtain rfl := Except.ok.inj h
    rfl
  | setValue =>
    rw [hkind] at h
    obtain rfl := Except.ok.inj h
    rfl
  | key =>
    rw [hkind] at h
    cases hkey : a.key with
    | error e =>
      rw [hkey] at h
      cases h
    | ok key =>
      rw [hkey] at h
      obtain rfl := Except.ok.inj h
      rfl
  | _ =>
    rw [hkind] at hbound
    cases hbound

/-- What the space offers on a node is accepted as long as the tree is the same. -/
theorem offered_fingerprint_accepted {tree : UiTree} (lex : Lexicon)
    (keybindings : List KeybindingInfo) (invokes : List OfferedInvoke) (hn : tree.ids.Nodup)
    {a : OfferedAction} (h : a ∈ (ActionSpace.fromTree lex tree keybindings invokes).offered)
    (hbound : a.kind.nodeBound = true) : ∃ target fp, FreshOffer tree a target fp := by
  obtain ⟨row, hrow, -, hmem⟩ := ActionSpace.row_of_offered h hbound
  obtain ⟨hpoint, hbulk⟩ := fingerprint_of_nodeRow hn hrow
  have htarget := (nodeActions_spec hmem).2.1
  have hfp : a.fingerprint =
      some (UiNode.fingerprint row.2 (row.1.head?.map NodeFields.id)) := by
    rcases mem_nodeActions.mp hmem with ⟨-, rfl⟩ | ⟨-, rfl | rfl | rfl⟩ <;> rfl
  have hgate := (fingerprintRefusal_eq_none tree).mpr hpoint
  refine ⟨row.2.id, _, htarget, hfp, hpoint, hbulk, hgate, ?_, ?_⟩
  · intro σ d payload delivery clause keybindings' invokeArgs world op hkind hop
    exact fingerprintGate_opForDecision htarget hfp (hkind ▸ hbound) hop
  · intro σ env host polls s cache req token nonce authorized gated hsnapshot
    rw [handleRequestCached_of_gate host polls s cache authorized gated, hsnapshot, hgate]

/-- The click on the item of the menu. -/
theorem offered_fingerprint_accepted_menu :
    ∃ a ∈ (ActionSpace.fromTree .ascii ActionSpace.menuTree [] []).offered,
      a.id = "CLICK:nav-settings" ∧
        ∃ target fp, FreshOffer ActionSpace.menuTree a target fp := by
  have hn : ActionSpace.menuTree.ids.Nodup := by decide
  have hrow : ([ActionSpace.sidebar], ActionSpace.settingsItem) ∈ ActionSpace.menuTree.nodeRows := by
    decide
  have hadmits : RoleAdmits .click (some ActionSpace.sidebar) ActionSpace.settingsItem :=
    Or.inr ⟨rfl, _, rfl, rfl⟩
  obtain ⟨a, ha, hkind, -, hid⟩ :=
    (@ActionSpace.offeredOn_iff .ascii _ [] [] hn _ hrow .click rfl).mpr ⟨by decide, hadmits⟩
  have hbound : a.kind.nodeBound = true := by
    rw [hkind]
    rfl
  exact ⟨a, ha, hid, offered_fingerprint_accepted .ascii [] [] hn ha hbound⟩

end GpuiAgent
