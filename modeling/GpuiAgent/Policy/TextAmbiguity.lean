import GpuiAgent.Policy.Literals

namespace GpuiAgent

open Framework

namespace Text

/-- A literal that stands in quotes in the goal, with the place of its opening quote. -/
def QuotedAt (goal : List Char) (row : Nat × String) : Prop :=
  ∃ before opening close rest, goal = before ++ opening :: (row.2.toList ++ close :: rest) ∧
    before.length = row.1 ∧ closingQuote opening = some close ∧ close ∉ row.2.toList ∧ row.2 ≠ ""

theorem quotedAt_of_mem_from {goal : List Char} {row : Nat × String} (cs : List Char) :
    ∀ (skip : Nat) (before : List Char), goal = before ++ cs →
      row ∈ quotedLiteralsFrom before.length skip cs → QuotedAt goal row := by
  induction cs with
  | nil =>
    intro skip before _ hrow
    cases hrow
  | cons c cs ih =>
    intro skip before hgoal hrow
    have hnext : ∀ skip, row ∈ quotedLiteralsFrom (before.length + 1) skip cs →
        QuotedAt goal row := by
      intro skip hrow
      refine ih skip (before ++ [c]) (by simp [hgoal]) ?_
      simpa using hrow
    rw [quotedLiteralsFrom] at hrow
    by_cases hskip : 0 < skip
    · rw [if_pos hskip] at hrow
      exact hnext _ hrow
    · rw [if_neg hskip] at hrow
      cases hclose : closingQuote c with
      | none =>
        rw [hclose] at hrow
        exact hnext _ hrow
      | some close =>
        rw [hclose] at hrow
        dsimp only at hrow
        by_cases hend : (cs.takeWhile (· ≠ close)).length = cs.length
        · rw [if_pos hend] at hrow
          exact hnext _ hrow
        · rw [if_neg hend] at hrow
          rcases List.mem_append.mp hrow with hhere | hlater
          · -- the literal that starts here
            obtain ⟨rest, hcs⟩ := Quotes.eq_takeWhile_append hend
            by_cases hempty : (cs.takeWhile (· ≠ close)).isEmpty
            · rw [if_pos hempty] at hhere
              cases hhere
            · rw [if_neg hempty] at hhere
              obtain rfl := List.mem_singleton.mp hhere
              refine ⟨before, c, close, rest, ?_, rfl, hclose, ?_, by simpa using hempty⟩
              · rw [hgoal, String.toList_ofList, ← hcs]
              · intro hmem
                rw [String.toList_ofList] at hmem
                simpa using List.mem_takeWhile_imp hmem
          · exact hnext _ hlater

/-- Every literal that is found stands in quotes in the goal. -/
theorem quotedAt_of_mem {goal : String} {row : Nat × String} (h : row ∈ quotedLiterals goal) :
    QuotedAt goal.toList row :=
  quotedAt_of_mem_from goal.toList 0 [] rfl h

/-- Of the last three words in the 32 characters before the quote, one is a word of the label. -/
def LabelPicks (goal label : String) (row : Nat × String) : Prop :=
  ∃ word ∈ (asciiWords (.ofList ((goal.toList.take row.1).rtake 32))).rtake 3,
    word ∈ asciiWords label

instance (goal label : String) : DecidablePred (LabelPicks goal label) :=
  fun _ => inferInstanceAs (Decidable (∃ word ∈ _, _))

theorem labelPicks_eq (goal label : String) (row : Nat × String) :
    labelPicks goal (asciiWords label) row.1 = decide (LabelPicks goal label row) := by
  have hlast (words : List String) : words.reverse.take 3 = (words.rtake 3).reverse := by
    rw [List.rtake_eq_reverse_take_reverse, List.reverse_reverse]
  rw [Bool.eq_iff_iff, decide_eq_true_iff, labelPicks]
  simp only [hlast, List.any_reverse, List.any_eq_true, List.contains_iff_mem]
  rfl

end Text

section Resolve

variable (ctx : TextContext)

/-- The quoted literals that were not typed yet. -/
def untypedLiterals : List (Nat × String) :=
  (Text.quotedLiterals ctx.goal.text).filter fun row => !ctx.typed.contains row.2

/-- Those of them that the field's label picks out. -/
def pickedLiterals : List (Nat × String) :=
  (untypedLiterals ctx).filter fun row => Text.LabelPicks ctx.goal.text ctx.fieldLabel row

/-- A text that is resolved is a literal in quotes, not typed yet, and the only one or the only one
that the label picks out; several of which the label picks out none or more than one are
ambiguous. -/
structure RefusesAmbiguity : Prop where
  only : ∀ r, DeterministicTextResolver.resolve ctx = .ok r →
    ∃ row, row.2 = r.text ∧ Text.QuotedAt ctx.goal.text.toList row ∧ r.text ∉ ctx.typed ∧
      (untypedLiterals ctx = [row] ∨ pickedLiterals ctx = [row])
  ambiguous : 2 ≤ (untypedLiterals ctx).length → (pickedLiterals ctx).length ≠ 1 →
    DeterministicTextResolver.resolve ctx = .error .ambiguous

variable {ctx}

theorem pickedLiterals_eq :
    pickedLiterals ctx = (untypedLiterals ctx).filter fun row =>
      Text.labelPicks ctx.goal.text (Text.asciiWords ctx.fieldLabel) row.1 := by
  simp only [Text.labelPicks_eq]
  rfl

/-- With two literals or more, the first that the label picks out is taken. -/
theorem resolve_quoted (hquoted : Text.quotedLiterals ctx.goal.text ≠ []) :
    DeterministicTextResolver.resolve ctx =
      match untypedLiterals ctx with
      | [] => .error (.abstain "no quoted literal left for this field")
      | [only] => .ok ⟨only.2, ctx.fingerprint⟩
      | _ => match (pickedLiterals ctx).head? with
        | some row => .ok ⟨row.2, ctx.fingerprint⟩
        | none => .error .ambiguous := by
  have hsome : (!(Text.quotedLiterals ctx.goal.text).isEmpty) = true := by
    simpa using hquoted
  rw [pickedLiterals_eq, List.head?_filter]
  unfold DeterministicTextResolver.resolve
  dsimp only
  rw [if_pos hsome]
  unfold untypedLiterals
  generalize (Text.quotedLiterals ctx.goal.text).filter
    (fun row => !ctx.typed.contains row.2) = untyped
  match untyped with
  | [] => rfl
  | [only] => rfl
  | first :: second :: rows =>
    cases hfind : (first :: second :: rows).find? fun row =>
        Text.labelPicks ctx.goal.text (Text.asciiWords ctx.fieldLabel) row.1 with
    | none => simp only [hfind]
    | some row => simp only [hfind]

theorem of_mem_untypedLiterals {row : Nat × String} (h : row ∈ untypedLiterals ctx) :
    Text.QuotedAt ctx.goal.text.toList row ∧ row.2 ∉ ctx.typed := by
  obtain ⟨hmem, huntyped⟩ := List.mem_filter.mp h
  exact ⟨Text.quotedAt_of_mem hmem, by simpa using huntyped⟩

/-- A literal is resolved without a guess exactly where the label picks out at most one. -/
theorem resolve_refusesAmbiguity_iff (hquoted : Text.quotedLiterals ctx.goal.text ≠ []) :
    RefusesAmbiguity ctx ↔ (pickedLiterals ctx).length ≤ 1 := by
  have hresolve := resolve_quoted hquoted
  have hpicked : ∀ row ∈ pickedLiterals ctx, row ∈ untypedLiterals ctx :=
    fun row hrow => List.mem_of_mem_filter hrow
  have hle : (pickedLiterals ctx).length ≤ (untypedLiterals ctx).length :=
    List.length_filter_le _ _
  -- no literal left and a single one are no choice; of two or more the label decides
  match hu : untypedLiterals ctx with
  | [] =>
    rw [hu] at hresolve hle
    refine iff_of_true ⟨fun r hr => ?_, fun h => absurd h (by simp [hu])⟩ (Nat.le_succ_of_le hle)
    rw [hresolve] at hr
    cases hr
  | [only] =>
    rw [hu] at hresolve hle
    refine iff_of_true ⟨fun r hr => ?_, fun h => absurd h (by simp [hu])⟩ hle
    rw [hresolve] at hr
    obtain rfl := Except.ok.inj hr
    obtain ⟨hat, huntyped⟩ := of_mem_untypedLiterals (hu ▸ List.mem_singleton_self only)
    exact ⟨only, rfl, hat, huntyped, .inl hu⟩
  | first :: second :: rows =>
    rw [hu] at hresolve
    have htwo : 2 ≤ (untypedLiterals ctx).length := by simp [hu]
    match hp : pickedLiterals ctx with
    | [] =>
      rw [hp] at hresolve
      refine iff_of_true ⟨fun r hr => ?_, fun _ _ => hresolve⟩ (Nat.zero_le 1)
      rw [hresolve] at hr
      cases hr
    | [row] =>
      rw [hp] at hresolve
      refine iff_of_true ⟨fun r hr => ?_, fun _ h => absurd rfl (hp ▸ h)⟩ le_rfl
      rw [hresolve] at hr
      obtain rfl := Except.ok.inj hr
      obtain ⟨hat, huntyped⟩ :=
        of_mem_untypedLiterals (hpicked row (hp ▸ List.mem_singleton_self row))
      exact ⟨row, rfl, hat, huntyped, .inr hp⟩
    | row :: row' :: rest =>
      rw [hp] at hresolve
      refine iff_of_false (fun h => ?_) (by simp)
      have hambiguous := h.ambiguous htwo (by simp [hp])
      rw [hresolve] at hambiguous
      cases hambiguous

end Resolve

def nameField (goal : String) : TextContext := ⟨⟨goal⟩, "Name", "textbox", [], 0⟩

theorem resolve_refusesAmbiguity_iff_email :
    RefusesAmbiguity (nameField "name \"Ann\" and email \"ann@x\"") :=
  (resolve_refusesAmbiguity_iff (by decide +kernel)).mpr (by decide +kernel)

/-- Of two names, the first is typed. -/
theorem resolve_guesses : ¬ RefusesAmbiguity (nameField "name \"Ann\" or name \"Bob\"") := by
  have hresolve : DeterministicTextResolver.resolve (nameField "name \"Ann\" or name \"Bob\"") =
      .ok ⟨"Ann", (nameField "name \"Ann\" or name \"Bob\"").fingerprint⟩ := by decide +kernel
  intro h
  have hambiguous := h.ambiguous (by decide +kernel) (by decide +kernel)
  rw [hresolve] at hambiguous
  cases hambiguous

end GpuiAgent
