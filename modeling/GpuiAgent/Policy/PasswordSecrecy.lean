import GpuiAgent.Policy.MenuEcho
import GpuiAgent.Tree.Redacted

namespace GpuiAgent

open Framework Framework.RoseTree

/-- A row of `viableNodes` without the values of password nodes. -/
def redactedRow (row : Option NodeFields × NodeFields) : Option NodeFields × NodeFields :=
  (row.1.map NodeFields.redacted, row.2.redacted)

theorem viableNodes_map_redacted (ns : List UiNode) : ∀ parent viable,
    viableNodes (Option.map NodeFields.redacted parent) viable
      (Forest.map NodeFields.redacted ns) = (viableNodes parent viable ns).map redactedRow := by
  induction ns using Forest.induction with
  | nil => intro parent viable; rfl
  | cons a cs ts hc ht =>
    intro parent viable
    have below := hc (some a) (viable && a.enabled && a.visible)
    have beside := ht parent viable
    simp only [Forest.map, Forest.mapOf, viableNodes, viableNode, redacted_enabled,
      redacted_visible, List.map_append]
    rw [Option.map_some] at below
    rw [below, beside]
    split <;> simp [redactedRow]

/-- The viable nodes of trees that differ only in password values correspond. -/
theorem viableNodes_redacted {t t' : UiTree} (same : t.redacted = t'.redacted) :
    (viableNodes none true t.nodes).map redactedRow =
      (viableNodes none true t'.nodes).map redactedRow := by
  have hnodes : Forest.map NodeFields.redacted t.nodes = Forest.map NodeFields.redacted t'.nodes :=
    congrArg UiTree.nodes same
  have h := viableNodes_map_redacted t.nodes none true
  have h' := viableNodes_map_redacted t'.nodes none true
  rw [← h, ← h', hnodes]

/-- The nodes that offer a kind. -/
def serves (kind : ActionKind) (parent : Option NodeFields) (node : NodeFields) : Bool :=
  match kind with
  | .click => clickable parent node
  | .type | .setValue | .key => node.role = Role.TEXTBOX
  | _ => false

/-- The offer that a node of `serves kind` makes. -/
def servedAction (kind : ActionKind) (row : Option NodeFields × NodeFields) : OfferedAction :=
  nodeAction kind (.of kind (some row.2.id))
    (if kind = .key then row.2.name ++ " submit" else row.2.name) row.1 row.2

theorem serves_redactedRow (kind : ActionKind) (row : Option NodeFields × NodeFields) :
    serves kind (redactedRow row).1 (redactedRow row).2 = serves kind row.1 row.2 := by
  have hparent : ((row.1.map NodeFields.redacted).map (·.role)) = row.1.map (·.role) := by
    cases row.1 <;> simp
  cases kind <;> simp [serves, redactedRow, clickable, hparent]

/-- The first viable node of an id that offers a kind. -/
def UiTree.menuNode (t : UiTree) (kind : ActionKind) (id : String) :
    Option (Option NodeFields × NodeFields) :=
  (viableNodes none true t.nodes).find? fun row => serves kind row.1 row.2 && row.2.id = id

theorem menuNode_redacted {t t' : UiTree} (same : t.redacted = t'.redacted) (kind : ActionKind)
    (id : String) :
    (t.menuNode kind id).map redactedRow = (t'.menuNode kind id).map redactedRow := by
  have lift (rows : List (Option NodeFields × NodeFields)) :
      (rows.find? fun row => serves kind row.1 row.2 && row.2.id = id).map redactedRow =
        (rows.map redactedRow).find? fun row => serves kind row.1 row.2 && row.2.id = id := by
    rw [List.find?_map]
    congr 2
    funext row
    simp only [Function.comp, serves_redactedRow]
    simp [redactedRow]
  unfold UiTree.menuNode
  rw [lift, lift, viableNodes_redacted same]

namespace ActionSpace

variable {lex : Lexicon} {t t' : UiTree} {keybindings : List KeybindingInfo}
  {invokes : List OfferedInvoke}

/-- A node makes one offer of every kind it serves. -/
theorem nodeActions_eq (row : Option NodeFields × NodeFields) :
    nodeActions row.1 row.2 =
      ([.click, .type, .setValue, .key].filter fun kind => serves kind row.1 row.2).map
        fun kind => servedAction kind row := by
  unfold nodeActions
  by_cases hc : clickable row.1 row.2 = true <;> by_cases ht : row.2.role = Role.TEXTBOX <;>
    simp [serves, hc, ht, servedAction, ActionId.of]

theorem find?_nodeActions {kind : ActionKind} (hk : kind.nodeBound = true) (id : String)
    (row : Option NodeFields × NodeFields) :
    (nodeActions row.1 row.2).find? (fun a => a.id = ActionId.of kind (some id)) =
      if serves kind row.1 row.2 && row.2.id = id then some (servedAction kind row) else none := by
  have hid (k : ActionKind) : (servedAction k row).id = ActionId.of kind (some id) ↔
      k = kind ∧ row.2.id = id := by
    constructor
    · exact fun h => ActionId.of_some_inj h
    · rintro ⟨rfl, rfl⟩
      rfl
  rw [nodeActions_eq, List.find?_map, List.find?_filter]
  simp only [Function.comp, hid]
  by_cases hs : serves kind row.1 row.2 = true <;> by_cases hi : row.2.id = id <;>
    cases kind <;> simp_all [ActionKind.nodeBound]

/-- A lookup under a node-bound id finds the first node that serves it. -/
theorem get_menuNode {kind : ActionKind} (hk : kind.nodeBound = true) (id : String) :
    (fromTree lex t keybindings invokes).get (ActionId.of kind (some id)) =
      (t.menuNode kind id).map (servedAction kind) := by
  have entities : ((keybindings.map keybindingAction) ++ invokes.map invokeAction ++
      [controlAction .done, controlAction .blocked, controlAction .wait]).find?
        (fun a => a.id = ActionId.of kind (some id)) = none := by
    rw [List.find?_eq_none]
    intro a ha hid
    have hid : a.id = ActionId.of kind (some id) := by simpa using hid
    simp only [List.mem_append, List.mem_map, List.mem_cons, List.not_mem_nil, or_false] at ha
    have hentity : a.id = ActionId.of a.kind a.target ∧ a.kind.nodeBound = false := by
      rcases ha with (⟨kb, -, rfl⟩ | ⟨invoke, -, rfl⟩) | rfl | rfl | rfl <;> exact ⟨rfl, rfl⟩
    have hkind : a.kind = kind := (ActionId.of_inj (hentity.1.symm.trans hid)).1
    rw [hkind, hk] at hentity
    cases hentity.2
  have nodes (rows : List (Option NodeFields × NodeFields)) :
      (rows.flatMap fun row => nodeActions row.1 row.2).find?
        (fun a => a.id = ActionId.of kind (some id)) =
      (rows.find? fun row => serves kind row.1 row.2 && row.2.id = id).map (servedAction kind) := by
    induction rows with
    | nil => rfl
    | cons row rows ih =>
      rw [List.flatMap_cons, List.find?_append, find?_nodeActions hk, ih, List.find?_cons]
      by_cases hserves : (serves kind row.1 row.2 && decide (row.2.id = id)) = true
      · simp [hserves]
      · simp [hserves]
  rw [get_fromTree]
  unfold offers
  rw [List.append_assoc, List.append_assoc, List.find?_append, nodes]
  rw [List.append_assoc] at entities
  rw [entities]
  simp [UiTree.menuNode]

/-- Under any other id the tree does not matter. -/
theorem get_entity {id : ActionId}
    (hid : ∀ kind x, kind.nodeBound = true → id ≠ ActionId.of kind (some x)) :
    (fromTree lex t keybindings invokes).get id = (fromTree lex t' keybindings invokes).get id := by
  have nodes (rows : List (Option NodeFields × NodeFields)) :
      (rows.flatMap fun row => nodeActions row.1 row.2).find? (fun a => a.id = id) = none := by
    rw [List.find?_eq_none]
    intro a ha he
    obtain ⟨row, -, ha⟩ := List.mem_flatMap.mp ha
    rw [nodeActions_eq] at ha
    obtain ⟨kind, hkind, rfl⟩ := List.mem_map.mp ha
    have hbound : kind.nodeBound = true := by
      have := List.mem_of_mem_filter hkind
      simp only [List.mem_cons, List.not_mem_nil, or_false] at this
      rcases this with rfl | rfl | rfl | rfl <;> rfl
    exact hid kind row.2.id hbound (of_decide_eq_true he).symm
  rw [get_fromTree, get_fromTree]
  unfold offers
  simp only [List.append_assoc, List.find?_append, nodes]

end ActionSpace

/-- What a request tells of an offer. -/
def OfferedAction.shown (a : OfferedAction) : OfferedAction := { a with fingerprint := none }

/-- No password node that heads the menu under its id has another value in `t'`. -/
def MenuPasswordsAgree (t t' : UiTree) : Prop :=
  ∀ kind id row, t.menuNode kind id = some row → isPassword row.2 = true →
    (t'.menuNode kind id).map (fun row => row.2.value) = some row.2.value

namespace ActionSpace

variable {lex : Lexicon} {t t' : UiTree} {keybindings : List KeybindingInfo}
  {invokes : List OfferedInvoke}

theorem servedAction_shown {kind : ActionKind} {row row' : Option NodeFields × NodeFields}
    (same : redactedRow row = redactedRow row') (hv : row.2.value = row'.2.value) :
    (servedAction kind row).shown = (servedAction kind row').shown := by
  have hnode : row.2 = row'.2 := eq_of_redacted_eq (congrArg Prod.snd same) hv
  simp [servedAction, OfferedAction.shown, nodeAction, hnode]

theorem get_shown (same : t.redacted = t'.redacted) (agree : MenuPasswordsAgree t t')
    (id : ActionId) :
    ((fromTree lex t keybindings invokes).get id).map OfferedAction.shown =
      ((fromTree lex t' keybindings invokes).get id).map OfferedAction.shown := by
  by_cases hid : ∃ kind x, kind.nodeBound = true ∧ id = ActionId.of kind (some x)
  · obtain ⟨kind, x, hk, rfl⟩ := hid
    have pair := menuNode_redacted same kind x
    rw [get_menuNode hk, get_menuNode hk]
    cases hrow : t.menuNode kind x with
    | none =>
      rw [hrow] at pair
      have hnone : t'.menuNode kind x = none := by simpa using pair.symm
      rw [hnone]
    | some row =>
      rw [hrow] at pair
      obtain ⟨row', hrow', hsame⟩ : ∃ row', t'.menuNode kind x = some row' ∧
          redactedRow row' = redactedRow row := by simpa using pair.symm
      have hv : row.2.value = row'.2.value := by
        by_cases hp : isPassword row.2 = true
        · simpa [hrow'] using (agree kind x row hrow hp).symm
        · exact value_eq_of_redacted_eq (congrArg Prod.snd hsame).symm (by simpa using hp)
      rw [hrow']
      simpa using servedAction_shown hsame.symm hv
  · have hget : (fromTree lex t keybindings invokes).get id =
        (fromTree lex t' keybindings invokes).get id :=
      get_entity fun kind x hk he => hid ⟨kind, x, hk, he⟩
    rw [hget]

theorem offered_shown (same : t.redacted = t'.redacted) (agree : MenuPasswordsAgree t t') :
    (fromTree lex t keybindings invokes).offered.map OfferedAction.shown =
      (fromTree lex t' keybindings invokes).offered.map OfferedAction.shown := by
  have equiv : (fromTree lex t keybindings invokes).actions.map (fun _ a => a.shown) |>.Equiv
      ((fromTree lex t' keybindings invokes).actions.map fun _ a => a.shown) := by
    apply Std.TreeMap.Equiv.of_forall_constGet?_eq
    intro id
    rw [Std.TreeMap.getElem?_map, Std.TreeMap.getElem?_map]
    exact get_shown same agree id
  have hlist := congrArg (List.map Prod.snd) (Std.TreeMap.Equiv.toList_eq equiv)
  simpa [offered, Function.comp_def] using hlist

end ActionSpace

section Requests

variable {space space' : ActionSpace} {goal : UiGoal} {history : List HistoryEntry}
  {abstain : AbstainReport}

/-- The rows of the menu do not tell the fingerprints. -/
theorem menu_congr
    (shown : space.offered.map OfferedAction.shown = space'.offered.map OfferedAction.shown) :
    space.offered.map OfferedAction.toJson = space'.offered.map OfferedAction.toJson := by
  have h := congrArg (List.map OfferedAction.toJson) shown
  rw [List.map_map, List.map_map] at h
  exact h

theorem chooseRequest_congr
    (shown : space.offered.map OfferedAction.shown = space'.offered.map OfferedAction.shown) :
    CommandEscalation.chooseRequest space goal history abstain =
      CommandEscalation.chooseRequest space' goal history abstain := by
  unfold CommandEscalation.chooseRequest
  rw [menu_congr shown]

namespace Jev

theorem criteria_congr
    (shown : space.offered.map OfferedAction.shown = space'.offered.map OfferedAction.shown)
    (kind : ActionKind) :
    (space.targetsOf kind).map criterion = (space'.targetsOf kind).map criterion := by
  have read (s : ActionSpace) : (s.targetsOf kind).map criterion =
      ((s.offered.map OfferedAction.shown).filter fun a => a.kind = kind && a.target.isSome).map
        criterion := by
    rw [List.filter_map, List.map_map]
    rfl
  rw [read, read, shown]

theorem targetHeads_congr
    (shown : space.offered.map OfferedAction.shown = space'.offered.map OfferedAction.shown) :
    targetHeads space = targetHeads space' := by
  have empty (kind : ActionKind) :
      (space.targetsOf kind).isEmpty = (space'.targetsOf kind).isEmpty := by
    have h := congrArg List.isEmpty (criteria_congr shown kind)
    rwa [List.isEmpty_map, List.isEmpty_map] at h
  unfold targetHeads
  simp only [empty, criteria_congr shown]

theorem buildQuestions_congr
    (shown : space.offered.map OfferedAction.shown = space'.offered.map OfferedAction.shown)
    (ids : ∀ id, (space.get id).isSome = (space'.get id).isSome) :
    buildQuestions space goal history = buildQuestions space' goal history := by
  have hcontrol (id : String) : (space.getStr id).isSome = (space'.getStr id).isSome := by
    unfold ActionSpace.getStr
    cases ActionId.tryNew id with
    | ok id => exact ids id
    | error e => rfl
  have hoperations : operationCriteria space = operationCriteria space' := by
    unfold operationCriteria
    simp only [targetHeads_congr shown, hcontrol]
  unfold buildQuestions
  rw [hoperations, targetHeads_congr shown, menu_congr shown]

end Jev

/-- The value that a row of the menu tells. -/
theorem value_toJson (a : OfferedAction) (role : a.role.isSome = true) :
    (a.toJson.get "state").bind (fun state => state.get "value") =
      (a.state.bind NodeState.value).map Json.string := by
  obtain ⟨role, hrole⟩ := Option.isSome_iff_exists.mp role
  have hstate : a.toJson.get "state" = a.state.map NodeState.toJson := by
    unfold OfferedAction.toJson Json.get
    rw [hrole]
    cases a.state <;> simp [List.lookup_cons]
  rw [hstate]
  cases a.state with
  | none => rfl
  | some state =>
    obtain ⟨value, checked, states⟩ := state
    simp only [Option.map_some, Option.bind_some, NodeState.toJson, Json.get]
    cases value <;> cases checked <;> cases states <;> simp [List.lookup_cons]

end Requests

section Told

variable {lex : Lexicon} {t t' : UiTree} {keybindings : List KeybindingInfo}
  {invokes : List OfferedInvoke}

/-- The value of a node that heads the menu is told by its row. -/
theorem value_servedAction (kind : ActionKind) (row : Option NodeFields × NodeFields) :
    ((servedAction kind row).state.bind NodeState.value) = row.2.value := by
  unfold servedAction nodeAction NodeState.of
  dsimp only
  split_ifs with hempty
  · exact (congrArg NodeState.value hempty).symm
  · rfl

/-- Equal menus tell equal values. -/
theorem menuPasswordsAgree_of_menu
    (menu : (ActionSpace.fromTree lex t keybindings invokes).offered.map OfferedAction.toJson =
      (ActionSpace.fromTree lex t' keybindings invokes).offered.map OfferedAction.toJson) :
    MenuPasswordsAgree t t' := by
  intro kind x row hrow _
  have hk : kind.nodeBound = true := by
    have hserves := List.find?_some hrow
    cases kind <;> simp_all [serves, ActionKind.nodeBound]
  have hid : row.2.id = x := by
    have hfound := List.find?_some hrow
    simp only [Bool.and_eq_true, decide_eq_true_eq] at hfound
    exact hfound.2
  have hget : (ActionSpace.fromTree lex t keybindings invokes).get (ActionId.of kind (some x)) =
      (t.menuNode kind x).map (servedAction kind) := ActionSpace.get_menuNode hk x
  rw [hrow, Option.map_some] at hget
  have hmem := ActionSpace.mem_offered_iff.mpr
    (show (ActionSpace.fromTree lex t keybindings invokes).get (servedAction kind row).id =
      some (servedAction kind row) by rw [← hget, ← hid]; rfl)
  have htold : (servedAction kind row).toJson ∈
      (ActionSpace.fromTree lex t' keybindings invokes).offered.map OfferedAction.toJson := by
    rw [← menu]
    exact List.mem_map_of_mem hmem
  obtain ⟨a, ha, hjson⟩ := List.mem_map.mp htold
  have haid : a.id = ActionId.of kind (some x) := by
    have := congrArg (fun v => v.get "id") hjson
    have hrowid : (servedAction kind row).id = ActionId.of kind (some x) := by rw [← hid]; rfl
    rw [← hrowid]
    exact Json.string.inj (Option.some.inj this)
  have hget' := ActionSpace.mem_offered_iff.mp ha
  rw [haid, ActionSpace.get_menuNode hk] at hget'
  obtain ⟨row', hrow', rfl⟩ := Option.map_eq_some_iff.mp hget'
  have hvalue := value_toJson (servedAction kind row) rfl
  rw [← hjson, value_toJson _ rfl, value_servedAction, value_servedAction] at hvalue
  rw [hrow', Option.map_some]
  exact congrArg some (Option.map_injective (fun _ _ h => Json.string.inj h) hvalue)

/-- What reaches an escalation endpoint is independent of the values of password nodes exactly when
the password nodes on the menu keep theirs. -/
theorem escalation_secret_iff (same : t.redacted = t'.redacted) (goal : UiGoal)
    (history : List HistoryEntry) (abstain : AbstainReport) :
    (CommandEscalation.chooseRequest (.fromTree lex t keybindings invokes) goal history abstain =
        CommandEscalation.chooseRequest (.fromTree lex t' keybindings invokes) goal history
          abstain ∧
      Jev.buildQuestions (.fromTree lex t keybindings invokes) goal history =
        Jev.buildQuestions (.fromTree lex t' keybindings invokes) goal history) ↔
    MenuPasswordsAgree t t' := by
  constructor
  · rintro ⟨request, -⟩
    have hactions := congrArg (fun v => v.get "actions") request
    exact menuPasswordsAgree_of_menu (Json.array.inj (Option.some.inj hactions))
  · intro agree
    have shown : (ActionSpace.fromTree lex t keybindings invokes).offered.map OfferedAction.shown =
        (ActionSpace.fromTree lex t' keybindings invokes).offered.map OfferedAction.shown :=
      ActionSpace.offered_shown same agree
    refine ⟨chooseRequest_congr shown, Jev.buildQuestions_congr shown fun id => ?_⟩
    have hget : ((ActionSpace.fromTree lex t keybindings invokes).get id).map OfferedAction.shown =
        ((ActionSpace.fromTree lex t' keybindings invokes).get id).map OfferedAction.shown :=
      ActionSpace.get_shown same agree id
    simpa using congrArg Option.isSome hget

end Told

/-- A form with one text field that is marked as a password. -/
def passwordTree (value : String) : UiTree where
  app := "app"
  platform := .desktop
  ready := true
  nodes := [node
    { id := "pw", role := Role.TEXTBOX, name := "Password", value := some value
      states := ["password"] } []]

theorem redacted_passwordTree (value value' : String) :
    (passwordTree value).redacted = (passwordTree value').redacted := rfl

theorem escalation_secret_iff_form :
    (CommandEscalation.chooseRequest (.fromTree .ascii (passwordTree "hunter2") [] []) ⟨"log in"⟩ []
          {} =
        CommandEscalation.chooseRequest (.fromTree .ascii (passwordTree "swordfish") [] [])
          ⟨"log in"⟩ [] {} ∧
      Jev.buildQuestions (.fromTree .ascii (passwordTree "hunter2") [] []) ⟨"log in"⟩ [] =
        Jev.buildQuestions (.fromTree .ascii (passwordTree "swordfish") [] []) ⟨"log in"⟩ []) ↔
    MenuPasswordsAgree (passwordTree "hunter2") (passwordTree "swordfish") :=
  escalation_secret_iff (redacted_passwordTree "hunter2" "swordfish") ⟨"log in"⟩ [] {}

/-- The value of a text field with the `password` state is part of the request. -/
theorem password_escalated :
    ¬ ∀ (t t' : UiTree), t.redacted = t'.redacted → ∀ goal history abstain,
      CommandEscalation.chooseRequest (.fromTree .ascii t [] []) goal history abstain =
          CommandEscalation.chooseRequest (.fromTree .ascii t' [] []) goal history abstain ∧
        Jev.buildQuestions (.fromTree .ascii t [] []) goal history =
          Jev.buildQuestions (.fromTree .ascii t' [] []) goal history := by
  intro secret
  have request := (secret (passwordTree "hunter2") (passwordTree "swordfish")
    (redacted_passwordTree _ _) ⟨"log in"⟩ [] {}).1
  revert request
  decide +kernel

end GpuiAgent
