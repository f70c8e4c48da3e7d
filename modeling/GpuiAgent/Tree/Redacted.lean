import GpuiAgent.Tree.Compact

namespace GpuiAgent

open Framework Framework.RoseTree

/-- A node without its value if it is a password node. -/
def NodeFields.redacted (a : NodeFields) : NodeFields :=
  if isPassword a then { a with value := none } else a

/-- Trees that are redacted to the same tree differ only in the values of password nodes. -/
def UiTree.redacted (t : UiTree) : UiTree :=
  { t with nodes := Forest.map NodeFields.redacted t.nodes }

section Redacted

variable (a : NodeFields)

@[simp] theorem redacted_id : a.redacted.id = a.id := by
  unfold NodeFields.redacted
  split <;> rfl

@[simp] theorem redacted_role : a.redacted.role = a.role := by
  unfold NodeFields.redacted
  split <;> rfl

@[simp] theorem redacted_enabled : a.redacted.enabled = a.enabled := by
  unfold NodeFields.redacted
  split <;> rfl

@[simp] theorem redacted_visible : a.redacted.visible = a.visible := by
  unfold NodeFields.redacted
  split <;> rfl

/-- A value that redaction takes away belongs to a password node. -/
theorem redacted_value : a.redacted.value = if isPassword a then none else a.value := by
  unfold NodeFields.redacted
  split <;> rfl

@[simp] theorem isPassword_redacted : isPassword a.redacted = isPassword a := by
  unfold NodeFields.redacted
  split <;> rfl

variable {a} {b : NodeFields}

/-- Two nodes that are redacted to the same node differ at most in their values. -/
theorem eq_of_redacted_eq (h : a.redacted = b.redacted) (hv : a.value = b.value) : a = b := by
  have hp : isPassword a = isPassword b := by simpa using congrArg isPassword h
  unfold NodeFields.redacted at h
  rw [hp] at h
  split_ifs at h
  · obtain ⟨⟩ := a
    obtain ⟨⟩ := b
    simp_all
  · exact h

theorem value_eq_of_redacted_eq (h : a.redacted = b.redacted) (hp : isPassword a = false) :
    a.value = b.value := by
  have hb : isPassword b = false := by
    rw [← isPassword_redacted, ← h, isPassword_redacted, hp]
  simpa [redacted_value, hp, hb] using congrArg NodeFields.value h

end Redacted

/-- A node that is not shown. -/
def UiNode.hidden : UiNode := node { id := "", role := "", name := "", visible := false } []

mutual
/-- A tree without what the compact format must not tell: the values of password nodes, and all of a
subtree whose root is not visible. -/
def concealedNode : UiNode → UiNode
  | node a cs => if a.visible then node a.redacted (concealedNodes cs) else .hidden
def concealedNodes : List UiNode → List UiNode
  | [] => []
  | n :: ns => concealedNode n :: concealedNodes ns
end

/-- Trees that are concealed to the same tree differ only in password values and in subtrees whose
root is not visible. -/
def UiTree.concealed (t : UiTree) : UiTree := { t with nodes := concealedNodes t.nodes }

theorem compactFlags_redacted (a : NodeFields) : compactFlags a.redacted = compactFlags a := by
  unfold NodeFields.redacted
  split_ifs with hp
  · have hsecret : isPassword { a with value := none } = true := hp
    unfold compactFlags
    rw [hp, hsecret]
    cases a.value <;> rfl
  · rfl

theorem compactLine_redacted (a : NodeFields) (depth : Nat) :
    compactLine a.redacted depth = compactLine a depth := by
  have hname : a.redacted.name = a.name := by
    unfold NodeFields.redacted
    split <;> rfl
  unfold compactLine
  rw [compactFlags_redacted, redacted_id, redacted_role, hname]

theorem compactNodes_concealed (ns : List UiNode) : ∀ depth,
    compactNodes depth (concealedNodes ns) = compactNodes depth ns := by
  induction ns using Forest.induction with
  | nil => exact fun _ => rfl
  | cons a cs ts hc ht =>
    intro depth
    rw [concealedNodes, concealedNode, compactNodes, compactNodes, ht depth]
    cases hvisible : a.visible with
    | true =>
      rw [if_pos rfl, compactNode, compactNode, redacted_visible, hvisible, if_pos rfl, if_pos rfl,
        compactLine_redacted, hc (depth + 1)]
    | false =>
      rw [if_neg (by simp), compactNode, hvisible]
      rfl

/-- The compact format tells nothing of a password value or of a subtree that is not shown. -/
theorem compactLines_secret {t t' : UiTree} (same : t.concealed = t'.concealed) :
    compactLines t = compactLines t' := by
  have hnodes : concealedNodes t.nodes = concealedNodes t'.nodes := congrArg UiTree.nodes same
  have h := compactNodes_concealed t.nodes 0
  have h' := compactNodes_concealed t'.nodes 0
  rw [hnodes] at h
  exact h.symm.trans h'

/-- A login form with a password field and a closed menu. -/
def loginTree (password : Option String) (menu : List UiNode) : UiTree where
  app := "login"
  platform := .headless
  ready := true
  nodes := [node { id := "form", role := "page", name := "Sign in" }
    [node { id := "secret", role := "password", name := "Password", value := password } [],
      node { id := "menu", role := "list", name := "Menu", visible := false } menu]]

theorem compactLines_secret_login :
    compactLines (loginTree (some "hunter2") []) =
      compactLines (loginTree none [UiNode.new "theme" "button" "Theme"]) :=
  compactLines_secret rfl

end GpuiAgent
