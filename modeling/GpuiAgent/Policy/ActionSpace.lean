import GpuiAgent.Framework.Lines
import GpuiAgent.Host.Keybinding
import GpuiAgent.Policy.Evidence
import Mathlib.Data.List.Sort

namespace GpuiAgent

open Framework Framework.RoseTree

/-- What an agent can do with one offer. -/
inductive ActionKind where
  | click | type | setValue | key | keybinding | invoke | done | blocked | wait
  deriving DecidableEq

namespace ActionKind

def asStr : ActionKind → String
  | click => "CLICK"
  | type => "TYPE"
  | setValue => "SET_VALUE"
  | key => "KEY"
  | keybinding => "KEYBINDING"
  | invoke => "INVOKE"
  | done => "DONE"
  | blocked => "BLOCKED"
  | wait => "WAIT"

def parse : String → Option ActionKind
  | "CLICK" | "click" => some click
  | "TYPE" | "type" | "TYPE_TEXT" | "type_text" => some type
  | "SET_VALUE" | "set_value" => some setValue
  | "KEY" | "key" => some key
  | "KEYBINDING" | "keybinding" => some keybinding
  | "INVOKE" | "invoke" => some invoke
  | "DONE" | "done" => some done
  | "BLOCKED" | "blocked" => some blocked
  | "WAIT" | "wait" => some wait
  | _ => none

/-- The kind a goal's words are scored under. -/
def operationKind : ActionKind → OperationKind
  | click => .click
  | type => .typeText
  | setValue => .setValue
  | key => .key
  | keybinding => .keybinding
  | invoke => .invoke
  | done => .done
  | blocked => .blocked
  | wait => .wait

/-- Controls name the app's state; every other kind binds an entity. -/
def isControl (kind : ActionKind) : Bool := kind.operationKind.isControl

/-- Kinds whose entity is a node of the tree. -/
def nodeBound : ActionKind → Bool
  | click | type | setValue | key => true
  | _ => false

theorem parse_asStr (kind : ActionKind) : parse kind.asStr = some kind := by cases kind <;> rfl

theorem asStr_injective {k l : ActionKind} (h : k.asStr = l.asStr) : k = l := by
  simpa [parse_asStr] using congrArg parse h

theorem colon_not_mem_asStr (kind : ActionKind) : ':' ∉ kind.asStr.toList := by
  cases kind <;> decide

theorem isControl_iff (kind : ActionKind) :
    kind.isControl = true ↔ kind = done ∨ kind = blocked ∨ kind = wait := by
  cases kind <;> decide

end ActionKind

/-- Errors of `ActionId.tryNew`. -/
inductive ActionSpaceError where
  | emptyId | invalidId
  deriving DecidableEq

def ActionSpaceError.display : ActionSpaceError → String
  | emptyId => "action id is empty"
  | invalidId => "action id contains whitespace or control chars"

abbrev ActionId := String

namespace ActionId

def tryNew (raw : String) : Except ActionSpaceError ActionId :=
  if raw.isEmpty then .error .emptyId
  else if raw.toList.any fun c => isWhitespace c || isControl c then .error .invalidId
  else .ok raw

def forTarget (kind : ActionKind) (nodeId : String) : ActionId := kind.asStr ++ ":" ++ nodeId

def forKey (nodeId key : String) : ActionId := "KEY:" ++ nodeId ++ ":" ++ key

def forEntity (kind : ActionKind) (name : String) : ActionId := kind.asStr ++ ":" ++ name

def forControl (kind : ActionKind) : ActionId := kind.asStr

/-- The id an offer of this kind on this target has. -/
def of (kind : ActionKind) : Option String → ActionId
  | none => forControl kind
  | some target => if kind = .key then forKey target "Enter" else forTarget kind target

theorem colon_mem_of (kind : ActionKind) (target : String) :
    ':' ∈ (of kind (some target)).toList := by
  unfold of
  dsimp only
  split_ifs <;> simp [forKey, forTarget, String.toList_append]

/-- Only a control's id is a bare kind name. -/
theorem of_eq_asStr {kind k : ActionKind} {target : Option String}
    (h : of kind target = k.asStr) : kind = k ∧ target = none := by
  cases target with
  | none => exact ⟨ActionKind.asStr_injective h, rfl⟩
  | some t => exact absurd (h ▸ colon_mem_of kind t) (ActionKind.colon_not_mem_asStr k)

theorem of_some_inj {k l : ActionKind} {t u : String} (h : of k (some t) = of l (some u)) :
    k = l ∧ t = u := by
  have hlist (kind : ActionKind) (target : String) : (of kind (some target)).toList =
      kind.asStr.toList ++ ':' ::
        (target.toList ++ if kind = .key then ":Enter".toList else []) := by
    unfold of
    dsimp only
    split_ifs with hkey
    · rw [hkey]
      simp [forKey, String.toList_append, ActionKind.asStr]
    · simp [forTarget, String.toList_append]
  have hsplit := congrArg String.toList h
  rw [hlist, hlist] at hsplit
  obtain ⟨hkind, htarget⟩ := append_sep_inj k.colon_not_mem_asStr l.colon_not_mem_asStr hsplit
  obtain rfl := ActionKind.asStr_injective (String.toList_inj.mp hkind)
  exact ⟨rfl, String.toList_inj.mp (List.append_cancel_right htarget)⟩

/-- An id tells its kind and its target. -/
theorem of_inj {k l : ActionKind} {t u : Option String} (h : of k t = of l u) :
    k = l ∧ t = u := by
  cases u with
  | none => exact of_eq_asStr h
  | some u =>
    cases t with
    | none =>
      obtain ⟨hkind, htarget⟩ := of_eq_asStr h.symm
      exact ⟨hkind.symm, htarget.symm⟩
    | some t =>
      obtain ⟨hkind, htarget⟩ := of_some_inj h
      exact ⟨hkind, congrArg some htarget⟩

end ActionId

/-- An invoke schema of the host. -/
structure OfferedInvoke where
  name : String
  description : String
  dangerous : Bool
  deriving DecidableEq

/-- Control state of a target when the space was built. -/
structure NodeState where
  value : Option String := none
  checked : Option Bool := none
  states : List String := []
  deriving DecidableEq

namespace NodeState

def of (node : NodeFields) : Option NodeState :=
  let state : NodeState := ⟨node.value, node.checked, node.states⟩
  if state = {} then none else some state

/-- Absent fields are left out. -/
def toJson (s : NodeState) : Json :=
  .object ((s.checked.map fun b => ("checked", .bool b)).toList ++
    (if s.states.isEmpty then [] else [("states", .strings s.states)]) ++
    (s.value.map fun v => ("value", .string v)).toList)

end NodeState

/-- A node target, a named entity or a control. -/
structure OfferedAction where
  id : ActionId
  kind : ActionKind
  target : Option String
  label : String
  role : Option String
  dangerous : Bool
  fingerprint : Option UInt64
  state : Option NodeState
  deriving DecidableEq

namespace OfferedAction

/-- What every offer satisfies: its id is read off its kind and target, only controls have no
target, controls are harmless, and a fingerprint comes with the node-bound kinds. -/
structure WellFormed (a : OfferedAction) : Prop where
  id_eq : a.id = ActionId.of a.kind a.target
  target_isSome : a.target.isSome = !a.kind.isControl
  dangerous_control : a.kind.isControl = true → a.dangerous = false
  fingerprint_isSome : a.fingerprint.isSome = a.kind.nodeBound

/-- The key name of a `KEY:<node>:<key>` id. -/
def key (a : OfferedAction) : Except String String :=
  match stripPrefix a.id "KEY:" with
  | none => .error s!"not a key action id: `{a.id}`"
  | some rest =>
    let key := rest.toList.reverse.takeWhile (· ≠ ':')
    if key.length = rest.toList.length then .error s!"malformed key id: `{a.id}`"
    else .ok (.ofList key.reverse)

end OfferedAction

/-- Tokens of the label and the value of a viable node, and its role. -/
structure NodeText where
  label : List String
  value : List String
  role : String
  deriving DecidableEq, Ord

/-- The offers of one observation in id order. -/
structure ActionSpace where
  rev : Option Nat
  actions : Std.TreeMap String OfferedAction
  texts : List NodeText
  wellFormed : ∀ id (a : OfferedAction), actions[id]? = some a → a.id = id ∧ a.WellFormed

/-- Identifier separators become word boundaries. -/
def explodeIdent (name : String) : String :=
  .ofList (name.toList.map fun c => if ['.', '-', '_', '/', ':'].contains c then ' ' else c)

mutual
/-- The nodes that are enabled and visible with all their ancestors, each with its parent. -/
def viableNode (parent : Option NodeFields) (ancestorsViable : Bool) :
    UiNode → List (Option NodeFields × NodeFields)
  | node a cs =>
    let viable := ancestorsViable && a.enabled && a.visible
    (if viable then [(parent, a)] else []) ++ viableNodes (some a) viable cs
def viableNodes (parent : Option NodeFields) (ancestorsViable : Bool) :
    List UiNode → List (Option NodeFields × NodeFields)
  | [] => []
  | n :: ns => viableNode parent ancestorsViable n ++ viableNodes parent ancestorsViable ns
end

def clickable (parent : Option NodeFields) (node : NodeFields) : Bool :=
  ["button", "link", "tab", "checkbox", "switch"].contains node.role ||
    (node.role = Role.LIST_ITEM && parent.map (·.role) = some Role.NAVIGATION)

/-- The offer of `kind` on a node. -/
def nodeAction (kind : ActionKind) (id : ActionId) (label : String) (parent : Option NodeFields)
    (node : NodeFields) : OfferedAction where
  id
  kind
  target := some node.id
  label
  role := some node.role
  dangerous := false
  fingerprint := some (UiNode.fingerprint node (parent.map (·.id)))
  state := NodeState.of node

/-- The offers on one viable node. -/
def nodeActions (parent : Option NodeFields) (node : NodeFields) : List OfferedAction :=
  (if clickable parent node then
    [nodeAction .click (.forTarget .click node.id) node.name parent node] else []) ++
  (if node.role = Role.TEXTBOX then
    [nodeAction .type (.forTarget .type node.id) node.name parent node,
      nodeAction .setValue (.forTarget .setValue node.id) node.name parent node,
      nodeAction .key (.forKey node.id "Enter") (node.name ++ " submit") parent node]
    else [])

def keybindingAction (kb : KeybindingInfo) : OfferedAction where
  id := .forEntity .keybinding kb.id
  kind := .keybinding
  target := some kb.id
  label := explodeIdent kb.id ++ " " ++ kb.chord
  role := some "keybinding"
  dangerous := bindingIsDangerous kb
  fingerprint := none
  state := none

def invokeAction (invoke : OfferedInvoke) : OfferedAction where
  id := .forEntity .invoke invoke.name
  kind := .invoke
  target := some invoke.name
  label := explodeIdent invoke.name ++ " " ++ invoke.description
  role := some "invoke"
  dangerous := invoke.dangerous
  fingerprint := none
  state := none

def controlAction (kind : ActionKind) : OfferedAction where
  id := .forControl kind
  kind
  target := none
  label := match kind with
    | .done => "Every requirement is satisfied"
    | .blocked => "No supported operation can progress"
    | .wait => "Wait briefly for the app to settle"
    | kind => kind.asStr
  role := none
  dangerous := false
  fingerprint := none
  state := none

/-- Everything a snapshot, a catalog and the schemas offer, in the order it is offered. -/
def offers (tree : UiTree) (keybindings : List KeybindingInfo) (invokes : List OfferedInvoke) :
    List OfferedAction :=
  ((viableNodes none true tree.nodes).flatMap fun row => nodeActions row.1 row.2) ++
    keybindings.map keybindingAction ++ invokes.map invokeAction ++
    [controlAction .done, controlAction .blocked, controlAction .wait]

/-- The first offer of an id stays. -/
def offer (actions : Std.TreeMap String OfferedAction) (action : OfferedAction) :
    Std.TreeMap String OfferedAction :=
  actions.insertIfNew action.id action

theorem nodeActions_wellFormed {parent : Option NodeFields} {node : NodeFields} {a : OfferedAction}
    (h : a ∈ nodeActions parent node) : a.WellFormed := by
  simp only [nodeActions, List.mem_append, List.mem_ite_nil_right, List.mem_cons, List.not_mem_nil,
    or_false] at h
  rcases h with ⟨-, rfl⟩ | ⟨-, rfl | rfl | rfl⟩ <;> exact ⟨rfl, rfl, fun _ => rfl, rfl⟩

theorem offers_wellFormed {tree : UiTree} {keybindings : List KeybindingInfo}
    {invokes : List OfferedInvoke} {a : OfferedAction} (h : a ∈ offers tree keybindings invokes) :
    a.WellFormed := by
  simp only [offers, List.mem_append, List.mem_flatMap, List.mem_map, List.mem_cons,
    List.not_mem_nil, or_false] at h
  rcases h with ((⟨row, -, h⟩ | ⟨kb, -, rfl⟩) | ⟨invoke, -, rfl⟩) | rfl | rfl | rfl
  · exact nodeActions_wellFormed h
  · exact ⟨rfl, rfl, fun h => absurd h (by simp [keybindingAction, ActionKind.isControl_iff]), rfl⟩
  · exact ⟨rfl, rfl, fun h => absurd h (by simp [invokeAction, ActionKind.isControl_iff]), rfl⟩
  all_goals exact ⟨rfl, rfl, fun _ => rfl, rfl⟩

/-- Folding offers into a map keeps the earlier entry of every id. -/
theorem getElem?_foldl_offer (as : List OfferedAction) (m : Std.TreeMap String OfferedAction)
    (id : ActionId) :
    (as.foldl offer m)[id]? = (m[id]? <|> as.find? fun a => a.id = id) := by
  induction as generalizing m with
  | nil => simp
  | cons a as ih =>
    rw [List.foldl_cons, ih, offer, Std.TreeMap.getElem?_insertIfNew, List.find?_cons]
    by_cases ha : a.id = id
    · subst ha
      by_cases hm : a.id ∈ m
      · simp [hm]
      · simp [hm]
    · simp [ha]

namespace ActionSpace

/-- Build the offered set from a snapshot, the keybinding catalog and the invoke schemas. -/
def fromTree (lex : Lexicon) (tree : UiTree) (keybindings : List KeybindingInfo)
    (invokes : List OfferedInvoke) : ActionSpace where
  rev := tree.rev
  actions := (offers tree keybindings invokes).foldl offer ∅
  texts := ((viableNodes none true tree.nodes).map fun row =>
    NodeText.mk (tokenize lex row.2.name) ((row.2.value.map (tokenize lex)).getD [])
      row.2.role).insertionSort fun a b => (compare a b).isLE
  wellFormed id a h := by
    rw [getElem?_foldl_offer] at h
    simp only [Std.TreeMap.getElem?_emptyc, Option.none_or, Option.orElse_eq_orElse,
      Option.orElse_eq_or] at h
    exact ⟨by simpa using List.find?_some h, offers_wellFormed (List.mem_of_find?_eq_some h)⟩

variable (space : ActionSpace)

def len : Nat := space.actions.size

def isEmpty : Bool := space.actions.isEmpty

def get (id : ActionId) : Option OfferedAction := space.actions[id]?

def getStr (id : String) : Option OfferedAction :=
  match ActionId.tryNew id with
  | .ok id => space.get id
  | .error _ => none

/-- The offers in id order. -/
def offered : List OfferedAction := space.actions.toList.map Prod.snd

/-- Target-bound offers of one kind, in id order. -/
def targetsOf (kind : ActionKind) : List OfferedAction :=
  space.offered.filter fun a => a.kind = kind && a.target.isSome

def containsKind (kind : ActionKind) : Bool := space.offered.any fun a => a.kind = kind

/-- A literal's tokens appear inside the label or the value of a viable node. -/
def literalPlaced (literalTokens : List String) : Bool :=
  !literalTokens.isEmpty && space.texts.any fun text =>
    containsRun text.label literalTokens || containsRun text.value literalTokens

/-- A literal's tokens appear inside a label. -/
def literalInLabel (literalTokens : List String) : Bool :=
  !literalTokens.isEmpty && space.texts.any fun text => containsRun text.label literalTokens

/-- A page shows `word`. -/
def locationShown (lex : Lexicon) (word : String) : Bool :=
  let needle := tokenize lex word
  !needle.isEmpty && space.texts.any fun text =>
    text.role = Role.PAGE && containsRun text.label needle

variable {space} {a : OfferedAction} {id : ActionId} {kind : ActionKind}

theorem id_of_get (h : space.get id = some a) : a.id = id := (space.wellFormed id a h).1

theorem wellFormed_of_get (h : space.get id = some a) : a.WellFormed := (space.wellFormed id a h).2

/-- A bare kind name looks up the harmless control of that kind. -/
theorem control_of_get (h : space.get kind.asStr = some a) :
    a.kind = kind ∧ a.target = none ∧ a.dangerous = false := by
  have hw := wellFormed_of_get h
  obtain ⟨hk, ht⟩ := ActionId.of_eq_asStr (hw.id_eq.symm.trans (id_of_get h))
  refine ⟨hk, ht, hw.dangerous_control ?_⟩
  simpa [ht] using hw.target_isSome.symm

theorem get_of_getStr (h : space.getStr id = some a) : space.get id = some a := by
  unfold getStr ActionId.tryNew at h
  split_ifs at h
  exact h

theorem mem_offered_iff : a ∈ space.offered ↔ space.get a.id = some a := by
  simp only [offered, List.mem_map, Prod.exists, exists_eq_right,
    Std.TreeMap.mem_toList_iff_getElem?_eq_some]
  constructor
  · rintro ⟨id, h⟩
    rwa [id_of_get h]
  · exact fun h => ⟨a.id, h⟩

theorem mem_targetsOf : a ∈ space.targetsOf kind ↔
    space.get a.id = some a ∧ a.kind = kind ∧ a.target.isSome = true := by
  simp [targetsOf, mem_offered_iff]

section FromTree

variable {lex : Lexicon} {tree : UiTree} {keybindings : List KeybindingInfo}
  {invokes : List OfferedInvoke}

/-- A lookup finds the first offer made under an id. -/
theorem get_fromTree : (fromTree lex tree keybindings invokes).get id =
    (offers tree keybindings invokes).find? fun a => a.id = id := by
  simp [get, fromTree, getElem?_foldl_offer]

/-- A node-bound offer carries the fingerprint of a viable node under its parent. -/
theorem node_of_get_fromTree (h : (fromTree lex tree keybindings invokes).get id = some a)
    (hn : a.kind.nodeBound = true) :
    ∃ row ∈ viableNodes none true tree.nodes, a.target = some row.2.id ∧
      a.fingerprint = some (UiNode.fingerprint row.2 (row.1.map (·.id))) := by
  rw [get_fromTree] at h
  have hm := List.mem_of_find?_eq_some h
  simp only [offers, List.mem_append, List.mem_flatMap, List.mem_map, List.mem_cons,
    List.not_mem_nil, or_false] at hm
  rcases hm with ((⟨row, hr, hm⟩ | ⟨kb, -, rfl⟩) | ⟨invoke, -, rfl⟩) | rfl | rfl | rfl
  · refine ⟨row, hr, ?_⟩
    simp only [nodeActions, List.mem_append, List.mem_ite_nil_right, List.mem_cons,
      List.not_mem_nil, or_false] at hm
    rcases hm with ⟨-, rfl⟩ | ⟨-, rfl | rfl | rfl⟩ <;> exact ⟨rfl, rfl⟩
  all_goals cases hn

end FromTree

end ActionSpace

end GpuiAgent
