import GpuiAgent.Tree.UiTree
import Mathlib.Data.List.Sort
import Mathlib.Order.Basic
import Mathlib.Data.String.Basic

namespace GpuiAgent

open Framework Framework.RoseTree

/-- Node scalar fields compared between revisions. -/
def NODE_FIELDS : List String :=
  ["role", "name", "value", "checked", "enabled", "focused", "visible", "bounds", "states"]

structure AddedNode where
  node : UiNode
  parent : Option String

structure ChangedNode where
  id : String
  fields : List (String × Json)

structure TreeDiff where
  added : List AddedNode := []
  removed : List String := []
  changed : List ChangedNode := []

namespace NodeFields

/-- The object `serde_json::to_value` gives for a node, `children` left out. A `value` or `checked`
of `none`, empty `states` and `visible = true` are not written. -/
def toValue (a : NodeFields) : List (String × Json) :=
  [("bounds", a.bounds.toJson)] ++
  (a.checked.map fun b => ("checked", Json.bool b)).toList ++
  [("enabled", .bool a.enabled), ("focused", .bool a.focused), ("id", .string a.id),
    ("name", .string a.name), ("role", .string a.role)] ++
  (if a.states.isEmpty then [] else [("states", .strings a.states)]) ++
  (a.value.map fun s => ("value", Json.string s)).toList ++
  (if a.visible then [] else [("visible", .bool false)])

def scalarFields (a : NodeFields) : List (String × Json) :=
  a.toValue.filter fun e => NODE_FIELDS.contains e.1

/-- The entries of the new node's scalar fields that the old node does not have. -/
def changedFields (old new : NodeFields) : List (String × Json) :=
  new.scalarFields.filter fun e => old.scalarFields.lookup e.1 ≠ some e.2

def applyField (a : NodeFields) (e : String × Json) : NodeFields :=
  match e.1 with
  | "role" => { a with role := e.2.asStr.getD "" }
  | "name" => { a with name := e.2.asStr.getD "" }
  | "value" => { a with value := e.2.asStr }
  | "checked" => { a with checked := e.2.asBool }
  | "enabled" => { a with enabled := e.2.asBool.getD true }
  | "focused" => { a with focused := e.2.asBool.getD false }
  | "visible" => { a with visible := e.2.asBool.getD true }
  | "bounds" => match Bounds.ofJson e.2 with
    | some b => { a with bounds := b }
    | none => a
  | "states" => match e.2.toStrings with
    | some s => { a with states := s }
    | none => a
  | _ => a

def applyFields (a : NodeFields) (fields : List (String × Json)) : NodeFields :=
  fields.foldl applyField a

end NodeFields

open NodeFields

abbrev TreeIndex := Std.TreeMap String (UiNode × Option String)

/-- (node, parent id) for every node, by id. -/
def index (t : UiTree) : TreeIndex :=
  t.subtrees.foldl (fun m r => m.insert r.2.id (r.2, r.1.head?)) ∅

/-- A new node whose parent is itself new, or moved, is already embedded in an ancestor's
`AddedNode`. -/
def embedded (before after : TreeIndex) (parent : Option String) : Bool :=
  match parent with
  | none => false
  | some p => match before[p]? with
    | none => true
    | some (_, oldPp) => match after[p]? with
      | some (_, pp) => pp ≠ oldPp
      | none => false

/-- The records `diff_trees` pushes for one node of the new tree. -/
def diffEntry (before after : TreeIndex) (id : String) (node : UiNode) (parent : Option String) :
    TreeDiff :=
  match before[id]? with
  | none => if embedded before after parent then {} else { added := [⟨node, parent⟩] }
  | some (oldNode, oldParent) =>
    if oldParent ≠ parent then
      { removed := [id], added := [⟨node, parent⟩] }
    else
      let fields := changedFields oldNode.label node.label
      if fields.isEmpty then {} else { changed := [⟨id, fields⟩] }

def TreeDiff.append (d e : TreeDiff) : TreeDiff :=
  ⟨d.added ++ e.added, d.removed ++ e.removed, d.changed ++ e.changed⟩

def diffTrees (old new : UiTree) : TreeDiff :=
  let before := index old
  let after := index new
  let diff := after.toList.foldl
    (fun (d : TreeDiff) e => d.append (diffEntry before after e.1 e.2.1 e.2.2)) {}
  let gone := before.keys.filter fun id => !after.contains id
  { added := diff.added.insertionSort fun a b => a.node.id ≤ b.node.id
    removed := (diff.removed ++ gone).insertionSort (· ≤ ·)
    changed := diff.changed.insertionSort fun a b => a.id ≤ b.id }

/-- `remove_id`, with "not found" read as "unchanged". -/
def removeId (nodes : List UiNode) (id : String) : List UiNode :=
  (Forest.erase NodeFields.id id nodes).getD nodes

/-- `find_mut`, then `apply_fields` on the node found. -/
def applyChange (nodes : List UiNode) (change : ChangedNode) : List UiNode :=
  (Forest.modify NodeFields.id change.id
    (fun n => node (applyFields n.label change.fields) n.children) nodes).getD nodes

/-- What one visit of the grafting pass does with a pending addition. -/
inductive Graft where
  | present
  | placed (nodes : List UiNode)
  | blocked

def graft (nodes : List UiNode) (add : AddedNode) : Graft :=
  if (Forest.find NodeFields.id add.node.id nodes).isSome then .present
  else match add.parent with
    | none => .placed (nodes ++ [add.node])
    | some p =>
      if p.isEmpty then .placed (nodes ++ [add.node])
      else match Forest.modify NodeFields.id p
          (fun n => node n.label (n.children ++ [add.node])) nodes with
        | some nodes => .placed nodes
        | none => .blocked

structure GraftPass where
  nodes : List UiNode
  pending : List AddedNode := []
  progress : Bool := false

/-- One `pending.retain` pass over the additions. -/
def graftPass (s : GraftPass) : List AddedNode → GraftPass
  | [] => s
  | add :: adds => match graft s.nodes add with
    | .present => graftPass s adds
    | .placed nodes => graftPass { s with nodes, progress := true } adds
    | .blocked => graftPass { s with pending := s.pending ++ [add] } adds

/-- The grafting loop. A pass with progress shortens the pending list, so its length is enough
fuel. -/
def graftLoop : Nat → List UiNode → List AddedNode → GraftPass
  | 0, nodes, pending => { nodes, pending }
  | fuel + 1, nodes, pending =>
    let s := graftPass { nodes } pending
    if s.progress && !s.pending.isEmpty then graftLoop fuel s.nodes s.pending else s

def applyDiff (old : UiTree) (diff : TreeDiff) : UiTree :=
  let nodes := diff.removed.foldl removeId old.nodes
  let nodes := diff.changed.foldl applyChange nodes
  { old with nodes := (graftLoop diff.added.length nodes diff.added).nodes }

namespace NodeFields

/-- The fields of `new` reach a client that holds `old`: nothing is cleared or returned to a default
that the serialisation omits, and changed bounds are finite. -/
def Carries (old new : NodeFields) : Prop :=
  (new.value = none → old.value = none) ∧ (new.checked = none → old.checked = none) ∧
  (new.visible = true → old.visible = true) ∧ (new.states = [] → old.states = []) ∧
  (new.bounds = old.bounds ∨ new.bounds.Finite)

instance (old new : NodeFields) : Decidable (Carries old new) :=
  inferInstanceAs (Decidable (_ ∧ _ ∧ _ ∧ _ ∧ _))

/-- What the recorded change makes of a node with fields `mine`. -/
def received (mine old new : NodeFields) : NodeFields :=
  applyFields mine (changedFields old new)

end NodeFields

end GpuiAgent
