import GpuiAgent.Framework.ForestEdit
import GpuiAgent.Tree.F32
import Std.Data.TreeMap.Lemmas

namespace GpuiAgent

open Framework Framework.RoseTree

/-- Which runtime serves the protocol. -/
inductive PlatformKind where
  | desktop | headless | web | mobile
  deriving DecidableEq

namespace Role
def WINDOW := "window"
def PAGE := "page"
def NAVIGATION := "navigation"
def BUTTON := "button"
def TEXTBOX := "textbox"
def LIST := "list"
def LIST_ITEM := "listitem"
def SCROLL := "scroll"
def CHECKBOX := "checkbox"
def NOTE := "note"
def STATUS := "status"
end Role

/-- Axis-aligned bounds in logical pixels. -/
structure Bounds where
  x : F32
  y : F32
  w : F32
  h : F32
  deriving DecidableEq

namespace Bounds

def zero : Bounds := ⟨.finite 0, .finite 0, .finite 0, .finite 0⟩

def hasArea (b : Bounds) : Bool := b.w.isPositive && b.h.isPositive

/-- Non-empty overlap of two rectangles. -/
def intersects (a b : Bounds) : Bool :=
  a.hasArea && b.hasArea && a.x.lt (b.x.add b.w) && b.x.lt (a.x.add a.w) &&
    a.y.lt (b.y.add b.h) && b.y.lt (a.y.add a.h)

def center (b : Bounds) : F32 × F32 := (b.x.add b.w.half, b.y.add b.h.half)

def Finite (b : Bounds) : Prop := b.x.Finite ∧ b.y.Finite ∧ b.w.Finite ∧ b.h.Finite

instance : DecidablePred Finite := fun _ => inferInstanceAs (Decidable (_ ∧ _))

def Numeric (b : Bounds) : Prop := b.x.Numeric ∧ b.y.Numeric ∧ b.w.Numeric ∧ b.h.Numeric

theorem Finite.numeric {b : Bounds} (h : b.Finite) : b.Numeric :=
  ⟨.inl h.1, .inl h.2.1, .inl h.2.2.1, .inl h.2.2.2⟩

theorem zero_finite : zero.Finite := by decide +kernel

def toJson (b : Bounds) : Json :=
  .object [("h", b.h.toJson), ("w", b.w.toJson), ("x", b.x.toJson), ("y", b.y.toJson)]

/-- `serde_json::from_value::<Bounds>`. -/
def ofJson (v : Json) : Option Bounds :=
  match v with
  | .array [x, y, w, h] => return ⟨← F32.ofJson x, ← F32.ofJson y, ← F32.ofJson w, ← F32.ofJson h⟩
  | v => do
    let x ← (v.get "x").bind F32.ofJson
    let y ← (v.get "y").bind F32.ofJson
    let w ← (v.get "w").bind F32.ofJson
    let h ← (v.get "h").bind F32.ofJson
    return ⟨x, y, w, h⟩

theorem ofJson_toJson_iff {b : Bounds} : ofJson b.toJson = some b ↔ b.Finite := by
  obtain ⟨x, y, w, h⟩ := b
  rw [Finite]
  simp only [← F32.ofJson_toJson_iff]
  cases hx : F32.ofJson x.toJson <;> cases hy : F32.ofJson y.toJson <;>
    cases hw : F32.ofJson w.toJson <;> cases hh : F32.ofJson h.toJson <;>
    simp [ofJson, toJson, Json.get, List.lookup_cons, hx, hy, hw, hh]

theorem toJson_injective_of_finite {b c : Bounds} (hb : b.Finite) (h : b.toJson = c.toJson) :
    b = c := by
  obtain ⟨hx, hy, hw, hh⟩ := hb
  simp only [toJson, Json.object.injEq, List.cons.injEq, Prod.mk.injEq, true_and, and_true] at h
  obtain ⟨eh, ew, ex, ey⟩ := h
  cases b
  cases c
  rw [Bounds.mk.injEq]
  exact ⟨F32.toJson_injective_of_finite hx ex, F32.toJson_injective_of_finite hy ey,
    F32.toJson_injective_of_finite hw ew, F32.toJson_injective_of_finite hh eh⟩

/-- Bounds that are sent where they are written differently arrive exactly if they are the old ones
or finite. -/
theorem received_iff {old new : Bounds} :
    (if old.toJson = new.toJson then old else (ofJson new.toJson).getD old) = new ↔
      new = old ∨ new.Finite := by
  split_ifs with hsame
  · refine ⟨fun h => .inl h.symm, ?_⟩
    rintro (h | hfinite)
    · exact h.symm
    · exact (toJson_injective_of_finite hfinite hsame.symm).symm
  · have hne : new ≠ old := fun h => hsame (congrArg toJson h.symm)
    rw [← ofJson_toJson_iff]
    cases ofJson new.toJson with
    | none => simp [hne, hne.symm]
    | some b => simp [hne]

end Bounds

/-- The fields of a `UiNode` other than `children`. -/
structure NodeFields where
  id : String
  role : String
  name : String
  value : Option String := none
  checked : Option Bool := none
  enabled : Bool := true
  focused : Bool := false
  visible : Bool := true
  bounds : Bounds := .zero
  states : List String := []
  deriving DecidableEq

abbrev UiNode := RoseTree NodeFields

namespace UiNode

def new (id role name : String) : UiNode := node { id, role, name } []

def id (n : UiNode) : String := n.label.id

def withChildren (n : UiNode) (children : List UiNode) : UiNode := node n.label children

def withChild (n : UiNode) (child : UiNode) : UiNode := node n.label (n.children ++ [child])

def withValue (n : UiNode) (value : String) : UiNode :=
  node { n.label with value := some value } n.children

def withChecked (n : UiNode) (checked : Bool) : UiNode :=
  node { n.label with
    checked := some checked
    states := n.label.states ++ [if checked then "checked" else "unchecked"] } n.children

mutual
/-- Set `visible` on the node and, when hiding, on every descendant. -/
def withVisibleDeep (visible : Bool) : UiNode → UiNode
  | node a cs => node { a with visible } (if visible then cs else hideAll cs)
def hideAll : List UiNode → List UiNode
  | [] => []
  | n :: ns => withVisibleDeep false n :: hideAll ns
end

/-- One step of FNV-1a over `bytes`. -/
def feed (h : UInt64) (bytes : List UInt8) : UInt64 :=
  bytes.foldl (fun h b => (h ^^^ b.toUInt64) * 0x100000001b3) h

def OFF : UInt64 := 0xcbf29ce484222325

def utf8 (s : String) : List UInt8 := s.toUTF8.toList

/-- The bytes of `v.to_le_bytes()`. -/
def leBytes (v : UInt64) : List UInt8 :=
  (List.range 8).map fun i => (v >>> (8 * i).toUInt64).toUInt8

/-- Content fingerprint of a node under its parent. Bounds, focus and children are excluded. -/
def fingerprint (a : NodeFields) (parentId : Option String) : UInt64 :=
  let h := [a.id, a.role, a.name].foldl (fun h field => feed (feed h (utf8 field)) [0xff]) OFF
  let h := feed h [a.enabled.toUInt8, a.visible.toUInt8]
  let h := feed h [match a.checked with
    | none => 0
    | some false => 1
    | some true => 2]
  let valueHash := match a.value with
    | none => 0
    | some v => feed OFF (utf8 v)
  let h := feed h (leBytes valueHash)
  let h := a.states.foldl (fun h state => feed (feed h (utf8 state)) [0xff]) h
  let h := match parentId with
    | some parent => feed h (utf8 parent)
    | none => h
  feed h [parentId.isSome.toUInt8]

end UiNode

structure UiTree where
  app : String
  platform : PlatformKind
  ready : Bool
  nodes : List UiNode
  rev : Option Nat := none

namespace UiTree

/-- Every node with its ancestors' ids, nearest first, in depth-first pre-order. -/
def subtrees (t : UiTree) : List (List String × UiNode) :=
  Forest.subtrees NodeFields.id [] t.nodes

/-- The same list without the nodes' own children. -/
def rows (t : UiTree) : List (List String × NodeFields) := Forest.rows NodeFields.id [] t.nodes

def ids (t : UiTree) : List String := Forest.keys NodeFields.id t.nodes

def find (t : UiTree) (id : String) : Option UiNode := Forest.find NodeFields.id id t.nodes

/-- First node with `id` in pre-order, with the id of its parent. -/
def findWithParent (t : UiTree) (id : String) : Option (UiNode × Option String) :=
  (t.subtrees.find? fun r => r.2.id = id).map fun r => (r.2, r.1.head?)

def findAll (t : UiTree) (id : String) : List UiNode :=
  (t.subtrees.filter fun r => r.2.id = id).map Prod.snd

def requireId (t : UiTree) (id : String) : Except String UiNode :=
  match t.findAll id with
  | [] => .error s!"node `{id}` not found"
  | [n] => .ok n
  | ns => .error s!"duplicate id `{id}` ({ns.length} nodes)"

def fingerprintOf (t : UiTree) (id : String) : Option UInt64 :=
  (t.findWithParent id).map fun r => UiNode.fingerprint r.1.label r.2

/-- Id to fingerprint, for every node. -/
def fingerprintMap (t : UiTree) : Std.TreeMap String UInt64 :=
  t.subtrees.foldl (fun m r => m.insert r.2.id (UiNode.fingerprint r.2.label r.1.head?)) ∅

end UiTree

/-- Take the bounds recorded for the node's id. -/
def NodeFields.applyBounds (map : Std.TreeMap String Bounds) (a : NodeFields) : NodeFields :=
  match map[a.id]? with
  | some bounds => { a with bounds }
  | none => a

@[simp] theorem NodeFields.id_applyBounds (map : Std.TreeMap String Bounds) (a : NodeFields) :
    (a.applyBounds map).id = a.id := by
  unfold NodeFields.applyBounds
  split <;> rfl

@[simp] theorem NodeFields.fingerprint_applyBounds (map : Std.TreeMap String Bounds)
    (a : NodeFields) (parent : Option String) :
    UiNode.fingerprint (a.applyBounds map) parent = UiNode.fingerprint a parent := by
  unfold NodeFields.applyBounds
  split <;> rfl

namespace UiTree

/-- Lay recorded bounds over a tree. -/
def applyBoundsMap (t : UiTree) (map : Std.TreeMap String Bounds) : UiTree :=
  { t with nodes := Forest.map (NodeFields.applyBounds map) t.nodes }

/-- Bounds are no part of a fingerprint. -/
theorem fingerprintOf_applyBoundsMap (t : UiTree) (map : Std.TreeMap String Bounds) (id : String) :
    (t.applyBoundsMap map).fingerprintOf id = t.fingerprintOf id := by
  have rows : (t.applyBoundsMap map).subtrees =
      t.subtrees.map fun r => (r.1, Forest.mapOf (NodeFields.applyBounds map) r.2) :=
    Forest.subtrees_map (NodeFields.id_applyBounds map) t.nodes []
  unfold fingerprintOf findWithParent
  rw [rows, List.find?_map]
  simp only [Option.map_map, Function.comp_def, UiNode.id, Forest.label_mapOf,
    NodeFields.id_applyBounds, NodeFields.fingerprint_applyBounds]
  rfl

end UiTree

end GpuiAgent
