import GpuiAgent.Policy.Offered
import GpuiAgent.Policy.TypeVerified

namespace GpuiAgent

open Framework Framework.RoseTree Framework.Forest

/-- The node's own visible flag and those of all its ancestors are set. -/
def Visible (row : List NodeFields × NodeFields) : Prop :=
  row.2.visible = true ∧ ∀ b ∈ row.1, b.visible = true

/-- The name has every word of the target, in any ASCII case. -/
def Covers (name target : String) : Prop :=
  ∀ word ∈ splitWhitespace target, ∃ word' ∈ splitWhitespace name,
    toAsciiLowercase word' = toAsciiLowercase word

theorem coversWords_iff (name target : String) :
    coversWords name target = true ↔ Covers name target := by
  simp only [coversWords, Covers, List.all_eq_true, List.any_eq_true, eqIgnoreAsciiCase,
    decide_eq_true_eq]

/-- The wait looks at a node's own flag only. -/
theorem onScreen_iff (tree : UiTree) (target : String) :
    onScreen tree target = true ↔
      ∃ row ∈ tree.nodeRows, row.2.visible = true ∧ Covers row.2.name target := by
  have hlabels : tree.subtrees.map (fun row => row.2.label) = tree.nodeRows.map Prod.snd := by
    rw [UiTree.nodeRows, map_snd_rows_eq_labels, ← map_snd_rows_eq_labels NodeFields.id [],
      Forest.rows, List.map_map]
    rfl
  have hany : onScreen tree target =
      tree.nodeRows.any fun row => row.2.visible && coversWords row.2.name target := by
    have h := congrArg (fun labels : List NodeFields =>
      labels.any fun a => a.visible && coversWords a.name target) hlabels
    simpa only [List.any_map, Function.comp_def, onScreen] using h
  simp only [hany, List.any_eq_true, Bool.and_eq_true, coversWords_iff]

namespace Runner

variable {σ : Type} (r : Runner σ) {s : RunState σ}

/-- The pass goes on with the next clause. -/
def Advances (s : RunState σ) (t : Turn σ) : Prop :=
  ∃ s', t = .next s' ∧ s'.clauseIdx = s.clauseIdx + 1

variable {r}

theorem waitPoll_advances_not : ¬ Advances s (r.waitPoll s) := by
  intro ⟨s', hnext, hidx⟩
  unfold waitPoll reobserve at hnext
  dsimp only at hnext
  split at hnext
  · cases hnext
  · obtain rfl := Turn.next.inj hnext
    exact absurd hidx (Nat.succ_ne_self s.clauseIdx).symm

/-- A `wait for` clause advances exactly where its target is on screen. -/
theorem waitForTurn_advances_iff (target : String) :
    Advances s (r.waitForTurn target s) ↔ onScreen s.tree target = true := by
  unfold waitForTurn
  by_cases hscreen : onScreen s.tree target = true
  · rw [if_pos hscreen]
    exact iff_of_true ⟨_, rfl, rfl⟩ hscreen
  · rw [if_neg hscreen]
    refine iff_of_false ?_ hscreen
    split_ifs
    · intro ⟨s', hnext, _⟩
      cases hnext
    · exact waitPoll_advances_not

/-- A covering node that is flagged visible under a hidden ancestor does not stand alone: some
visible node covers the target too. -/
def NoneHiddenAlone (tree : UiTree) (target : String) : Prop :=
  ∀ row ∈ tree.nodeRows, row.2.visible = true → (∃ b ∈ row.1, b.visible = false) →
    Covers row.2.name target → ∃ shown ∈ tree.nodeRows, Visible shown ∧ Covers shown.2.name target

/-- A `wait for` clause takes for visible what the compact format and the action space show, exactly
where no covering node is hidden by its ancestors alone. -/
theorem waitFor_visible_iff (clauses : List String) (keybindings : List KeybindingInfo)
    (s : RunState σ) (c goalText target : String) (hclause : clauses[s.clauseIdx]? = some c)
    (hmode : clauseMode r.lex (substitutePronouns c s.typed) = some (goalText, .waitFor target)) :
    ((Advances s (r.turn clauses keybindings s) ↔
        ∃ row ∈ s.tree.nodeRows, Visible row ∧ Covers row.2.name target) ↔
      NoneHiddenAlone s.tree target) ∧
    (compactLines s.tree).toList =
      (s.tree.nodeRows.filter (Upheld NodeFields.visible)).flatMap
        (fun row => (compactLine row.2 row.1.length).toList) ∧
    viableNodes none true s.tree.nodes =
      (s.tree.nodeRows.filter (Upheld fun a => a.enabled && a.visible)).map
        (fun row => (row.1.head?, row.2)) := by
  refine ⟨?_, compactLines_eq s.tree, viableNodes_eq s.tree⟩
  have hturn : r.turn clauses keybindings s = r.waitForTurn target s := by
    unfold turn
    rw [hclause]
    dsimp only
    rw [hmode]
  rw [hturn, waitForTurn_advances_iff, onScreen_iff]
  constructor
  · intro h row hrow hvisible _ hcovers
    exact h.mp ⟨row, hrow, hvisible, hcovers⟩
  · intro h
    constructor
    · intro ⟨row, hrow, hvisible, hcovers⟩
      by_cases hancestors : ∀ b ∈ row.1, b.visible = true
      · exact ⟨row, hrow, ⟨hvisible, hancestors⟩, hcovers⟩
      · rw [not_forall₂] at hancestors
        obtain ⟨b, hb, hhidden⟩ := hancestors
        exact h row hrow hvisible ⟨b, hb, by simpa using hhidden⟩ hcovers
    · intro ⟨row, hrow, hvisible, hcovers⟩
      exact ⟨row, hrow, hvisible.1, hcovers⟩

end Runner

/-- A run that waits for `Saved` on a tree. -/
def waitingForSaved (tree : UiTree) : RunState TodoStore :=
  { session := ⟨draftedStore "", 0⟩, tree, rev := none }

def dialog (shown : Bool) : NodeFields :=
  { id := "dialog", role := "dialog", name := "Dialog", visible := shown }

def savedLine : NodeFields := { id := "saved", role := Role.STATUS, name := "Saved" }

/-- A status line in a dialog, which is shown or hidden as a whole. -/
def dialogTree (shown : Bool) : UiTree where
  app := ""
  platform := .headless
  ready := true
  nodes := [node (dialog shown) [node savedLine []]]
  rev := none

theorem nodeRows_dialogTree (shown : Bool) :
    (dialogTree shown).nodeRows = [([], dialog shown), ([dialog shown], savedLine)] := rfl

theorem waitFor_visible_iff_shown :
    Runner.Advances (waitingForSaved (dialogTree true))
        (storeRunner.turn ["wait for Saved"] [] (waitingForSaved (dialogTree true))) ↔
      ∃ row ∈ (dialogTree true).nodeRows, Visible row ∧ Covers row.2.name "Saved" := by
  refine (Runner.waitFor_visible_iff ["wait for Saved"] [] (waitingForSaved (dialogTree true))
    "wait for Saved" "wait for Saved" "Saved" rfl (by decide +kernel)).1.mpr ?_
  intro row hrow _ hhidden
  have hrow : row ∈ [([], dialog true), ([dialog true], savedLine)] := hrow
  simp only [List.mem_cons, List.not_mem_nil, or_false] at hrow
  rcases hrow with rfl | rfl <;> simp [dialog] at hhidden

/-- The run goes on while the dialog is hidden. -/
theorem hiddenDialog_advances :
    Runner.Advances (waitingForSaved (dialogTree false))
      (storeRunner.turn ["wait for Saved"] [] (waitingForSaved (dialogTree false))) ∧
    ¬ ∃ row ∈ (dialogTree false).nodeRows, Visible row ∧ Covers row.2.name "Saved" := by
  constructor
  · have hscreen : onScreen (dialogTree false) "Saved" = true := by decide +kernel
    exact (Runner.waitForTurn_advances_iff "Saved").mpr hscreen
  · intro ⟨row, hrow, ⟨hown, hancestors⟩, _⟩
    rw [nodeRows_dialogTree] at hrow
    simp only [List.mem_cons, List.not_mem_nil, or_false] at hrow
    rcases hrow with rfl | rfl
    · cases hown
    · cases hancestors (dialog false) List.mem_cons_self

end GpuiAgent
