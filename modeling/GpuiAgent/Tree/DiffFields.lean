import GpuiAgent.Tree.Diff

namespace GpuiAgent.NodeFields

theorem scalarFields_eq (a : NodeFields) : a.scalarFields =
    [("bounds", a.bounds.toJson)] ++
    (a.checked.map fun b => ("checked", Json.bool b)).toList ++
    [("enabled", .bool a.enabled), ("focused", .bool a.focused), ("name", .string a.name),
      ("role", .string a.role)] ++
    (if a.states.isEmpty then [] else [("states", .strings a.states)]) ++
    (a.value.map fun s => ("value", Json.string s)).toList ++
    (if a.visible then [] else [("visible", .bool false)]) := by
  cases hc : a.checked <;> cases hv : a.value <;> cases hs : a.states.isEmpty <;>
    cases hi : a.visible <;> simp [scalarFields, toValue, NODE_FIELDS, hc, hv, hs, hi]

theorem lookup_scalarFields (a : NodeFields) :
    a.scalarFields.lookup "bounds" = some a.bounds.toJson ∧
    a.scalarFields.lookup "checked" = a.checked.map Json.bool ∧
    a.scalarFields.lookup "enabled" = some (.bool a.enabled) ∧
    a.scalarFields.lookup "focused" = some (.bool a.focused) ∧
    a.scalarFields.lookup "name" = some (.string a.name) ∧
    a.scalarFields.lookup "role" = some (.string a.role) ∧
    a.scalarFields.lookup "states" = (if a.states.isEmpty then none else some (.strings a.states)) ∧
    a.scalarFields.lookup "value" = a.value.map Json.string ∧
    a.scalarFields.lookup "visible" = (if a.visible then none else some (.bool false)) := by
  rw [scalarFields_eq]
  cases hc : a.checked <;> cases hv : a.value <;> cases hs : a.states.isEmpty <;>
    cases hi : a.visible <;> simp [List.lookup_cons]

/-- One entry of the new node: applied unless the old node has the same entry. -/
def put (o x : NodeFields) (e : String × Json) : NodeFields :=
  if o.scalarFields.lookup e.1 ≠ some e.2 then applyField x e else x

theorem received_eq_foldl (x o n : NodeFields) :
    received x o n = n.scalarFields.foldl (put o) x := by
  simp only [received, changedFields, applyFields, List.foldl_filter, decide_eq_true_eq]
  rfl

theorem put_eq {o x y : NodeFields} {e : String × Json} (happly : applyField x e = y)
    (hsame : o.scalarFields.lookup e.1 = some e.2 → x = y) : put o x e = y := by
  unfold put
  split_ifs with h
  · exact happly
  · exact hsame (not_not.mp h)

theorem put_bounds {o x : NodeFields} (b : Bounds) (hx : x.bounds = o.bounds) :
    put o x ("bounds", b.toJson) = { x with bounds :=
      if o.bounds.toJson = b.toJson then o.bounds else (Bounds.ofJson b.toJson).getD o.bounds } := by
  have hlookup : (o.scalarFields.lookup "bounds" ≠ some b.toJson) ↔ ¬ o.bounds.toJson = b.toJson := by
    rw [(lookup_scalarFields o).1, Ne, Option.some_inj]
  unfold put
  rw [if_congr hlookup rfl rfl, ite_not]
  split_ifs
  · simp [← hx]
  · simp only [applyField]
    cases Bounds.ofJson b.toJson with
    | none => simp [← hx]
    | some b' => rfl

theorem put_checked {o x : NodeFields} (c : Option Bool) (hx : x.checked = o.checked) :
    (c.map fun b => ("checked", Json.bool b)).toList.foldl (put o) x =
      { x with checked := if c = none then o.checked else c } := by
  cases c with
  | none => simp [← hx]
  | some b =>
    refine put_eq (by simp [applyField, Json.asBool]) fun h => ?_
    rw [(lookup_scalarFields o).2.1, ← hx] at h
    have hb : x.checked = some b := by simpa using h
    rw [if_neg (by simp), ← hb]

theorem put_enabled {o x : NodeFields} (b : Bool) (hx : x.enabled = o.enabled) :
    put o x ("enabled", .bool b) = { x with enabled := b } := by
  refine put_eq (by simp [applyField, Json.asBool]) fun h => ?_
  rw [(lookup_scalarFields o).2.2.1, ← hx] at h
  have hb : x.enabled = b := by simpa using h
  simp [← hb]

theorem put_focused {o x : NodeFields} (b : Bool) (hx : x.focused = o.focused) :
    put o x ("focused", .bool b) = { x with focused := b } := by
  refine put_eq (by simp [applyField, Json.asBool]) fun h => ?_
  rw [(lookup_scalarFields o).2.2.2.1, ← hx] at h
  have hb : x.focused = b := by simpa using h
  simp [← hb]

theorem put_name {o x : NodeFields} (s : String) (hx : x.name = o.name) :
    put o x ("name", .string s) = { x with name := s } := by
  refine put_eq (by simp [applyField, Json.asStr]) fun h => ?_
  rw [(lookup_scalarFields o).2.2.2.2.1, ← hx] at h
  have hs : x.name = s := by simpa using h
  simp [← hs]

theorem put_role {o x : NodeFields} (s : String) (hx : x.role = o.role) :
    put o x ("role", .string s) = { x with role := s } := by
  refine put_eq (by simp [applyField, Json.asStr]) fun h => ?_
  rw [(lookup_scalarFields o).2.2.2.2.2.1, ← hx] at h
  have hs : x.role = s := by simpa using h
  simp [← hs]

theorem put_states {o x : NodeFields} (ss : List String) (hx : x.states = o.states) :
    (if ss.isEmpty then [] else [("states", Json.strings ss)]).foldl (put o) x =
      { x with states := if ss = [] then o.states else ss } := by
  cases ss with
  | nil => simp [← hx]
  | cons s ss =>
    refine put_eq (by simp [applyField]) fun h => ?_
    rw [(lookup_scalarFields o).2.2.2.2.2.2.1, ← hx] at h
    split_ifs at h with he
    have hs : x.states = s :: ss := Json.strings_injective (by simpa using h)
    rw [if_neg (by simp), ← hs]

theorem put_value {o x : NodeFields} (v : Option String) (hx : x.value = o.value) :
    (v.map fun s => ("value", Json.string s)).toList.foldl (put o) x =
      { x with value := if v = none then o.value else v } := by
  cases v with
  | none => simp [← hx]
  | some s =>
    refine put_eq (by simp [applyField, Json.asStr]) fun h => ?_
    rw [(lookup_scalarFields o).2.2.2.2.2.2.2.1, ← hx] at h
    have hs : x.value = some s := by simpa using h
    rw [if_neg (by simp), ← hs]

theorem put_visible {o x : NodeFields} (b : Bool) (hx : x.visible = o.visible) :
    (if b then [] else [("visible", Json.bool false)]).foldl (put o) x =
      { x with visible := if b then o.visible else false } := by
  cases b with
  | true => simp [← hx]
  | false =>
    refine put_eq (by simp [applyField, Json.asBool]) fun h => ?_
    rw [(lookup_scalarFields o).2.2.2.2.2.2.2.2, ← hx] at h
    split_ifs at h with hv
    simpa using congrArg (fun b => { x with visible := b }) (Bool.not_eq_true _ ▸ hv)

/-- What the client makes of its own copy of the old node. -/
theorem received_self (o n : NodeFields) : received o o n =
    { id := o.id, role := n.role, name := n.name
      value := if n.value = none then o.value else n.value
      checked := if n.checked = none then o.checked else n.checked
      enabled := n.enabled, focused := n.focused
      visible := if n.visible then o.visible else false
      bounds := if o.bounds.toJson = n.bounds.toJson then o.bounds
        else (Bounds.ofJson n.bounds.toJson).getD o.bounds
      states := if n.states = [] then o.states else n.states } := by
  rw [received_eq_foldl, scalarFields_eq n]
  simp only [List.foldl_append, List.foldl_cons, List.foldl_nil]
  rw [put_bounds n.bounds, put_checked n.checked, put_enabled, put_focused, put_name, put_role,
    put_states n.states, put_value n.value, put_visible n.visible] <;> rfl

theorem applyField_id (a : NodeFields) (e : String × Json) : (applyField a e).id = a.id := by
  unfold applyField
  split <;> try rfl
  all_goals split <;> rfl

theorem applyFields_id (a : NodeFields) (fields : List (String × Json)) :
    (applyFields a fields).id = a.id := by
  induction fields generalizing a with
  | nil => rfl
  | cons e es ih => exact (ih _).trans (applyField_id a e)

/-- The copy becomes the new node exactly when no change is lost in the serialisation. -/
theorem received_self_eq_iff {o n : NodeFields} (hid : o.id = n.id) :
    received o o n = n ↔ Carries o n := by
  rw [received_self]
  obtain ⟨ni, nr, nn, nv, nc, ne, nf, nvis, nb, ns⟩ := n
  obtain ⟨oi, or, on, ov, oc, oe, of, ovis, ob, os⟩ := o
  have hbounds := @Bounds.received_iff ob nb
  simp only [NodeFields.mk.injEq, Carries] at hid ⊢
  subst hid
  rw [hbounds]
  cases nv <;> cases nc <;> cases nvis <;> cases ns <;> simp [eq_comm] <;> tauto

end GpuiAgent.NodeFields
