import GpuiAgent.Framework.Lines
import GpuiAgent.Framework.Outline
import GpuiAgent.Tree.Redacted

namespace GpuiAgent

open Framework Framework.RoseTree Framework.Forest

/-- The nodes of a tree, each with its ancestors, nearest first. -/
def UiTree.nodeRows (tree : UiTree) : List (List NodeFields × NodeFields) :=
  Forest.rows id [] tree.nodes

/-- The compact format has a line for each visible node. -/
theorem compactLines_eq (tree : UiTree) :
    (compactLines tree).toList =
      (tree.nodeRows.filter (Upheld NodeFields.visible)).flatMap
        fun row => (compactLine row.2 row.1.length).toList := by
  have hnodes (F : Forest NodeFields) : ∀ path : List NodeFields,
      (compactNodes path.length F).toList =
        (upheld NodeFields.visible path F).flatMap
          fun row => (compactLine row.2 row.1.length).toList := by
    induction F using Forest.induction with
    | nil => exact fun _ => rfl
    | cons a cs ts hc ht =>
      intro path
      rw [upheld_cons, compactNodes, compactNode, String.toList_append, List.flatMap_append,
        ht path]
      split_ifs
      · rw [String.toList_append, List.flatMap_cons, ← hc (a :: path)]
        rfl
      · rfl
  rw [UiTree.nodeRows, ← upheld_eq_filter tree.nodes (by simp), ← hnodes tree.nodes []]
  rfl

/-- The indentation of a line, two spaces for each step down. -/
def indent (depth : Nat) : List Char := List.replicate (2 * depth) ' '

/-- What the line of a node says after its indentation. -/
def compactText (a : NodeFields) : String :=
  let flags := compactFlags a
  a.id ++ " " ++ a.role ++ " \"" ++ replace a.name "\"" "'" ++ "\"" ++
    if flags.isEmpty then "" else "  [" ++ "|".intercalate flags ++ "]"

/-- The lines of a text. -/
def textLines (s : String) : List (List Char) := (rawLines '\n' s.toList).map RawLine.body

/-- The depth that the indentation of a line stands for. -/
def indentedDepth (line : List Char) : Nat := (line.takeWhile (· = ' ')).length / 2

/-- The nodes that are visible with all their ancestors, in depth-first pre-order. -/
def UiTree.shownRows (tree : UiTree) : List (List NodeFields × NodeFields) :=
  tree.nodeRows.filter (Upheld NodeFields.visible)

/-- The tree of the visible nodes, without what is on them. -/
def UiTree.shownShape (tree : UiTree) : Forest Unit := shape (pruned NodeFields.visible tree.nodes)

/-- One line for each node that is shown, indented by its depth, and the shape of the tree can be
read back from the indentation. -/
structure LinePerNode (tree : UiTree) : Prop where
  count : (textLines (compactLines tree)).length = tree.shownRows.length
  lines : textLines (compactLines tree) =
    tree.shownRows.map fun row => indent row.1.length ++ (compactText row.2).toList
  readable : ∀ F : Forest Unit,
    (textLines (compactLines tree)).map indentedDepth = depths 0 F ↔ F = tree.shownShape

/-- The texts that the line of a node takes over hold no line break, and the line does not go on
with spaces after its indentation. -/
structure PlainNode (a : NodeFields) : Prop where
  id : '\n' ∉ a.id.toList
  role : '\n' ∉ a.role.toList
  name : '\n' ∉ a.name.toList
  value : isPassword a = false → ∀ v, a.value = some v → '\n' ∉ v.toList.take MAX_VALUE_CHARS
  start : ¬ [' ', ' '] <+: a.id.toList ++ ' ' :: (a.role.toList ++ [' '])

section LinePerNode

variable {a : NodeFields} {tree : UiTree}

theorem compactLine_eq (a : NodeFields) (depth : Nat) :
    (compactLine a depth).toList = indent depth ++ (compactText a).toList ++ ['\n'] := by
  have hindent : ∀ depth : Nat,
      ("".intercalate (List.replicate depth "  ")).toList = indent depth := by
    intro depth
    induction depth with
    | zero => rfl
    | succ depth ih =>
      cases depth with
      | zero => rfl
      | succ depth =>
        rw [List.replicate_succ, List.replicate_succ, String.intercalate_cons_cons,
          ← List.replicate_succ, String.toList_append, String.toList_append, ih]
        rfl
  unfold compactLine compactText
  simp only [String.toList_append, hindent, List.append_assoc]
  rfl

theorem newline_mem_compactFlags :
    (∃ flag ∈ compactFlags a, '\n' ∈ flag.toList) ↔ isPassword a = false ∧
      ∃ v, a.value = some v ∧ '\n' ∈ v.toList.take MAX_VALUE_CHARS := by
  have hvalue (shown : List Char) :
      '\n' ∈ ("value=\"" ++ replace (.ofList shown) "\"" "'" ++ "\"").toList ↔ '\n' ∈ shown := by
    rw [String.toList_append, String.toList_append, List.mem_append, List.mem_append,
      mem_replace_char rfl rfl (by decide) (by decide), or_iff_left (by decide),
      or_iff_right (by decide), String.toList_ofList]
  have happend (flags flags' : List String) :
      (∃ flag ∈ flags ++ flags', '\n' ∈ flag.toList) ↔
        (∃ flag ∈ flags, '\n' ∈ flag.toList) ∨ ∃ flag ∈ flags', '\n' ∈ flag.toList := by
    simp only [List.mem_append, or_and_right, exists_or]
  have hchecked : ¬ ∃ flag ∈ if a.checked = some true then ["checked"] else [],
      '\n' ∈ flag.toList := by
    split <;> decide
  have henabled : ¬ ∃ flag ∈ if a.enabled then [] else ["disabled"], '\n' ∈ flag.toList := by
    split <;> decide
  have hfocused : ¬ ∃ flag ∈ if a.focused then ["focused"] else [], '\n' ∈ flag.toList := by
    split <;> decide
  rw [compactFlags, happend, happend, happend, or_iff_right hchecked, or_iff_right henabled,
    or_iff_right hfocused]
  cases a.value with
  | none => simp
  | some value =>
    cases isPassword a with
    | true => simp
    | false =>
      -- the ellipsis adds no line break
      have htake : '\n' ∈ (value.toList.take MAX_VALUE_CHARS ++
          if MAX_VALUE_CHARS < value.toList.length then ['…'] else []) ↔
            '\n' ∈ value.toList.take MAX_VALUE_CHARS := by
        split <;> simp
      constructor
      · rintro ⟨flag, hflag, hmem⟩
        obtain rfl := List.mem_singleton.mp hflag
        exact ⟨rfl, value, rfl, htake.mp ((hvalue _).mp hmem)⟩
      · rintro ⟨-, v, hv, hmem⟩
        obtain rfl := Option.some_inj.mp hv
        exact ⟨_, List.mem_singleton_self _, (hvalue _).mpr (htake.mpr hmem)⟩

theorem newline_mem_compactText :
    '\n' ∈ (compactText a).toList ↔ '\n' ∈ a.id.toList ∨ '\n' ∈ a.role.toList ∨
      '\n' ∈ a.name.toList ∨ (isPassword a = false ∧
        ∃ v, a.value = some v ∧ '\n' ∈ v.toList.take MAX_VALUE_CHARS) := by
  have hname : '\n' ∈ (replace a.name "\"" "'").toList ↔ '\n' ∈ a.name.toList :=
    mem_replace_char rfl rfl (by decide) (by decide) a.name
  have hflags : '\n' ∈ (if (compactFlags a).isEmpty then ""
      else "  [" ++ "|".intercalate (compactFlags a) ++ "]").toList ↔
        ∃ flag ∈ compactFlags a, '\n' ∈ flag.toList := by
    cases compactFlags a with
    | nil => simp
    | cons flag flags =>
      rw [← mem_intercalate (show '\n' ∉ "|".toList by decide)]
      simp [String.toList_append]
  rw [← newline_mem_compactFlags, ← hflags, ← hname]
  simp [compactText, String.toList_append]

theorem plainNode_iff : PlainNode a ↔ '\n' ∉ (compactText a).toList ∧
    ¬ [' ', ' '] <+: (compactText a).toList := by
  have hstart : [' ', ' '] <+: (compactText a).toList ↔
      [' ', ' '] <+: a.id.toList ++ ' ' :: (a.role.toList ++ [' ']) := by
    have htext : a.id.toList ++ ' ' :: (a.role.toList ++ [' ']) <+: (compactText a).toList := by
      refine ⟨'"' :: (replace a.name "\"" "'" ++ "\"" ++
        if (compactFlags a).isEmpty then ""
        else "  [" ++ "|".intercalate (compactFlags a) ++ "]").toList, ?_⟩
      simp [compactText, String.toList_append]
    constructor
    · intro h
      exact List.prefix_of_prefix_length_le h htext (by simp; omega)
    · exact fun h => h.trans htext
  rw [newline_mem_compactText, hstart]
  constructor
  · intro h
    refine ⟨?_, h.start⟩
    rintro (hid | hrole | hname | ⟨hp, v, hv, hvalue⟩)
    · exact h.id hid
    · exact h.role hrole
    · exact h.name hname
    · exact h.value hp v hv hvalue
  · rintro ⟨htext, hstart⟩
    rw [not_or, not_or, not_or] at htext
    obtain ⟨hid, hrole, hname, hvalue⟩ := htext
    exact ⟨hid, hrole, hname, fun hp v hv hmem => hvalue ⟨hp, v, hv, hmem⟩, hstart⟩

/-- The depth of a line is read off its indentation exactly where the text after it does not go on
with two spaces. -/
theorem indentedDepth_iff (depth : Nat) (text : List Char) :
    indentedDepth (indent depth ++ text) = depth ↔ ¬ [' ', ' '] <+: text := by
  have hspaces : ∀ c ∈ indent depth, decide (c = ' ') = true := fun c hc =>
    decide_eq_true (List.eq_of_mem_replicate hc)
  rw [indentedDepth, List.takeWhile_append_of_pos hspaces, List.length_append, indent,
    List.length_replicate]
  match text with
  | [] => simp
  | [c] =>
    have hlen := (List.takeWhile_prefix (l := [c]) (· = ' ')).length_le
    have hnot : ¬ [' ', ' '] <+: [c] := fun h => by simpa using h.length_le
    rw [List.length_singleton] at hlen
    exact iff_of_true (by omega) hnot
  | c :: d :: cs =>
    rw [List.cons_prefix_cons, List.cons_prefix_cons]
    by_cases hc : c = ' '
    · by_cases hd : d = ' '
      · simp [hc, hd]
        omega
      · simp [hc, hd, Ne.symm hd]
        omega
    · simp [hc, Ne.symm hc]

theorem depths_shownShape (tree : UiTree) :
    depths 0 tree.shownShape = tree.shownRows.map fun row => row.1.length := by
  rw [UiTree.shownShape, depths_shape, depths, rows_pruned, upheld_eq_filter tree.nodes (by simp)]
  simp only [Nat.zero_add]
  rfl

/-- The text of the lines, and nothing else. -/
theorem compactLines_eq_lines (tree : UiTree) :
    (compactLines tree).toList =
      (tree.shownRows.map fun row => indent row.1.length ++ (compactText row.2).toList).flatMap
        fun body => body ++ ['\n'] := by
  rw [compactLines_eq, List.flatMap_map]
  simp only [compactLine_eq]
  rfl

/-- The compact format has one line for each node that is shown, at its depth, exactly where every
such node is plain. -/
theorem linePerNode_iff (tree : UiTree) :
    LinePerNode tree ↔ ∀ row ∈ tree.shownRows, PlainNode row.2 := by
  constructor
  · intro h row hrow
    have hbody : indent row.1.length ++ (compactText row.2).toList ∈
        textLines (compactLines tree) := by
      rw [h.lines]
      exact List.mem_map_of_mem hrow
    obtain ⟨line, hline, hline'⟩ := List.mem_map.mp hbody
    have hnewline := sep_notMem_body hline
    rw [hline', List.mem_append, not_or] at hnewline
    -- the shape of the tree itself is the one that is read back
    have hdepths := (h.readable tree.shownShape).mpr rfl
    rw [h.lines, depths_shownShape, List.map_map] at hdepths
    have hdepth := List.map_inj_left.mp hdepths row hrow
    exact plainNode_iff.mpr ⟨hnewline.2, (indentedDepth_iff _ _).mp hdepth⟩
  · intro h
    have hplain : ∀ body ∈
        tree.shownRows.map fun row => indent row.1.length ++ (compactText row.2).toList,
        '\n' ∉ body := by
      intro body hbody hmem
      obtain ⟨row, hrow, rfl⟩ := List.mem_map.mp hbody
      rcases List.mem_append.mp hmem with hmem | hmem
      · cases List.eq_of_mem_replicate hmem
      · exact (plainNode_iff.mp (h row hrow)).1 hmem
    have hlines : textLines (compactLines tree) =
        tree.shownRows.map fun row => indent row.1.length ++ (compactText row.2).toList := by
      rw [textLines, compactLines_eq_lines, rawLines_flatMap hplain, List.map_map]
      exact List.map_id _
    have hdepths : (textLines (compactLines tree)).map indentedDepth =
        depths 0 tree.shownShape := by
      rw [hlines, depths_shownShape, List.map_map]
      exact List.map_congr_left fun row hrow =>
        (indentedDepth_iff _ _).mpr (plainNode_iff.mp (h row hrow)).2
    refine ⟨by rw [hlines, List.length_map], hlines, fun F => ?_⟩
    rw [hdepths]
    exact ⟨fun hF => (depths_injective hF).symm, fun hF => by rw [hF]⟩

/-- One item whose name has a line break. -/
def brokenTree : UiTree where
  app := "todo"
  platform := .headless
  ready := true
  nodes := [UiNode.new "item" "listitem" "milk\n  eggs"]

theorem compactLines_broken : ¬ ∀ tree : UiTree, LinePerNode tree := by
  intro h
  exact absurd (h brokenTree).count (by decide +kernel)

end LinePerNode

end GpuiAgent
