import GpuiAgent.Framework.Upheld
import Mathlib.Data.List.Perm.Basic

namespace GpuiAgent.Framework.Forest

open RoseTree

variable {α : Type*}

/-- The same trees up to the order of siblings, at any depth. -/
inductive Reordered : Forest α → Forest α → Prop where
  | perm {F G : Forest α} : F.Perm G → Reordered F G
  | children {a : α} {cs ds ts : Forest α} :
    Reordered cs ds → Reordered (node a cs :: ts) (node a ds :: ts)
  | trans {F G H : Forest α} : Reordered F G → Reordered G H → Reordered F H

theorem rows_eq_flatMap (F : Forest α) (path : List α) :
    rows id path F = F.flatMap fun t => rows id path [t] := by
  induction F with
  | nil => rfl
  | cons t F ih =>
    rw [List.flatMap_cons, ← ih, ← rows_append]
    rfl

/-- Listing with the ancestors' keys reads the keys off the ancestors. -/
theorem rows_eq_map_rows_id {κ : Type*} (key : α → κ) (F : Forest α) : ∀ path : List α,
    rows key (path.map key) F = (rows id path F).map fun row => (row.1.map key, row.2) := by
  induction F using induction with
  | nil => exact fun _ => rfl
  | cons a cs ts hc ht =>
    intro path
    have hbelow := hc (a :: path)
    rw [List.map_cons] at hbelow
    rw [rows_cons, rows_cons, hbelow, ht path, List.map_cons, List.map_append]
    rfl

/-- Reordering siblings keeps every label under its ancestors. -/
theorem Reordered.rows_perm {F G : Forest α} (h : Reordered F G) :
    ∀ path, (rows id path F).Perm (rows id path G) := by
  induction h with
  | perm h =>
    intro path
    rw [rows_eq_flatMap _ path, rows_eq_flatMap _ path]
    exact h.flatMap_right _
  | children _ ih =>
    intro path
    rw [rows_cons, rows_cons]
    exact ((ih _).append_right _).cons _
  | trans _ _ ih ih' => exact fun path => (ih path).trans (ih' path)

end GpuiAgent.Framework.Forest
