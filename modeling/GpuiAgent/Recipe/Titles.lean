import GpuiAgent.Policy.Literals
import GpuiAgent.Recipe.Resolve

namespace GpuiAgent

open Framework Framework.Quotes

namespace Resolve

/-- The first apostrophe or straight quote of `input` opens a segment with `text` in it. -/
def QuotedFirst (input text : String) : Prop :=
  FirstSegment Text.isStraightQuote input.toList text.toList

theorem firstQuoted_eq_some_iff {input text : String} :
    firstQuoted input = some text ↔ QuotedFirst input text := by
  unfold firstQuoted QuotedFirst
  rw [← firstSegment_eq_some_iff, Option.map_eq_some_iff]
  constructor
  · intro ⟨cs, hcs, heq⟩
    rw [hcs, ← heq, String.toList_ofList]
  · intro h
    exact ⟨text.toList, h, String.ofList_toList⟩

theorem firstQuoted_eq_none_iff {input : String} :
    firstQuoted input = none ↔ ∀ text, ¬ QuotedFirst input text := by
  rw [Option.eq_none_iff_forall_ne_some]
  exact forall_congr' fun text => not_congr firstQuoted_eq_some_iff

/-- What is quoted first goes before anything else. -/
theorem quotedOr_eq_some_iff {input title : String} {other : Option String} :
    (match firstQuoted input with
      | some quoted => some quoted
      | none => other) = some title ↔
      QuotedFirst input title ∨ (∀ text, ¬ QuotedFirst input text) ∧ other = some title := by
  cases hquoted : firstQuoted input with
  | some text =>
    have htext := firstQuoted_eq_some_iff.mp hquoted
    have hsome : some text = some title ↔ QuotedFirst input title := by
      rw [← hquoted, firstQuoted_eq_some_iff]
    have hnot : ¬ ∀ text, ¬ QuotedFirst input text := fun h => h text htext
    simp only [hsome, hnot, false_and, or_false]
  | none =>
    have hnone := firstQuoted_eq_none_iff.mp hquoted
    simp only [hnone, false_or, not_false_eq_true, implies_true, true_and]

/-- `rest` follows the first `marker` of a clause, its ends trimmed. -/
def FollowsMarker (clause marker rest : String) : Prop :=
  ∃ i ≤ clause.toList.length,
    marker.toList <+: (clause.toList.drop i).map Char.toLower ∧
    (∀ j < i, ¬ marker.toList <+: (clause.toList.drop j).map Char.toLower) ∧
    rest = trim (.ofList (clause.toList.drop (i + marker.toList.length)))

theorem afterMarker_eq_some_iff {clause marker rest : String} :
    afterMarker clause marker = some rest ↔ FollowsMarker clause marker rest := by
  unfold afterMarker FollowsMarker toAsciiLowercase
  simp only [Option.map_eq_some_iff, findSub_eq_some_iff, String.toList_ofList, List.length_map,
    ← List.map_drop]
  constructor
  · intro ⟨i, ⟨hle, hat, hbefore⟩, hrest⟩
    exact ⟨i, hle, hat, hbefore, hrest.symm⟩
  · intro ⟨i, hle, hat, hbefore, hrest⟩
    exact ⟨i, ⟨hle, hat, hbefore⟩, hrest.symm⟩

/-- A title as the words after a marker give it: what is quoted there, or else all of it. -/
def NamesTitle (rest title : String) : Prop :=
  QuotedFirst rest title ∨
    (∀ text, ¬ QuotedFirst rest text) ∧ rest ≠ "" ∧
      title = trimMatches (fun c => c = '.' || c = ',') rest

theorem titleOf_eq_some_iff {rest title : String} :
    titleOf rest = some title ↔ NamesTitle rest title := by
  have hrest : (if rest.isEmpty then none
      else some (trimMatches (fun c => c = '.' || c = ',') rest)) = some title ↔
      rest ≠ "" ∧ title = trimMatches (fun c => c = '.' || c = ',') rest := by
    by_cases hempty : rest = ""
    · simp [hempty]
    · have hfull : ¬ rest.isEmpty = true := by simpa using hempty
      rw [if_neg hfull]
      exact ⟨fun h => ⟨hempty, (Option.some_inj.mp h).symm⟩, fun h => congrArg some h.2.symm⟩
  exact quotedOr_eq_some_iff.trans (or_congr_right (and_congr_right fun _ => hrest))

theorem titleOf_eq_none_iff {rest : String} : titleOf rest = none ↔ rest = "" := by
  constructor
  · intro h
    unfold titleOf at h
    split at h
    · cases h
    · split_ifs at h with hempty
      simpa using hempty
  · intro h
    rw [h]
    rfl

/-- The title of a clause: what is quoted first, or else what the first marker that is followed by
anything names. -/
def TitleIs (clause title : String) : Prop :=
  QuotedFirst clause title ∨
    (∀ text, ¬ QuotedFirst clause text) ∧
      ∃ before marker after rest, MARKERS = before ++ marker :: after ∧
        (∀ earlier ∈ before, ∀ r, FollowsMarker clause earlier r → r = "") ∧
        FollowsMarker clause marker rest ∧ NamesTitle rest title

theorem marker_eq_none_iff {clause marker : String} :
    (afterMarker clause marker).bind titleOf = none ↔
      ∀ rest, FollowsMarker clause marker rest → rest = "" := by
  rw [Option.bind_eq_none_iff]
  refine forall_congr' fun rest => ?_
  rw [afterMarker_eq_some_iff, titleOf_eq_none_iff]

theorem marker_eq_some_iff {clause marker title : String} :
    (afterMarker clause marker).bind titleOf = some title ↔
      ∃ rest, FollowsMarker clause marker rest ∧ NamesTitle rest title := by
  rw [Option.bind_eq_some_iff]
  refine exists_congr fun rest => ?_
  rw [afterMarker_eq_some_iff, titleOf_eq_some_iff]

theorem extractTitle_eq_some_iff {clause title : String} :
    extractTitle clause = some title ↔ TitleIs clause title := by
  have hmarked : (MARKERS.findSome? fun marker => (afterMarker clause marker).bind titleOf) =
      some title ↔ ∃ before marker after rest, MARKERS = before ++ marker :: after ∧
        (∀ earlier ∈ before, ∀ r, FollowsMarker clause earlier r → r = "") ∧
        FollowsMarker clause marker rest ∧ NamesTitle rest title := by
    rw [List.findSome?_eq_some_iff]
    constructor
    · intro ⟨before, marker, after, hmarkers, hat, hbefore⟩
      obtain ⟨rest, hrest, hnames⟩ := marker_eq_some_iff.mp hat
      exact ⟨before, marker, after, rest, hmarkers,
        fun earlier hearlier => marker_eq_none_iff.mp (hbefore earlier hearlier), hrest, hnames⟩
    · intro ⟨before, marker, after, rest, hmarkers, hbefore, hrest, hnames⟩
      exact ⟨before, marker, after, hmarkers, marker_eq_some_iff.mpr ⟨rest, hrest, hnames⟩,
        fun earlier hearlier => marker_eq_none_iff.mpr (hbefore earlier hearlier)⟩
  exact quotedOr_eq_some_iff.trans (or_congr_right (and_congr_right fun _ => hmarked))

/-- With straight quotes only, and something in the first of them, the one literal is the
title. -/
theorem titleIs_of_straight {clause lit : String} (hlit : quotedLiterals clause = [lit])
    (hstraight : ∀ c ∈ clause.toList, c ≠ '\x27' ∧ c ≠ '\u201c' ∧ c ≠ '\u201d')
    (hfirst : ¬ QuotedFirst clause "") : TitleIs clause lit := by
  change quotedLiteralsFrom none clause.toList = [lit] at hlit
  left
  unfold QuotedFirst at hfirst ⊢
  generalize clause.toList = cs at hlit hstraight hfirst ⊢
  -- both scanners come to the first straight quote with nothing read
  by_cases hquote : '"' ∈ cs
  · obtain ⟨before, cs', rfl, hbefore⟩ := List.eq_append_cons_of_mem hquote
    have hplain : ∀ c ∈ before, Unquoted c := fun c hc =>
      ⟨fun he => hbefore (he ▸ hc), (hstraight c (List.mem_append_left _ hc)).2⟩
    rw [quotedLiteralsFrom_unquoted_append hplain] at hlit
    have hclose : Text.closingQuote '"' = some '"' := rfl
    by_cases hclosed : '"' ∈ cs'
    · obtain ⟨text, rest, rfl, htext⟩ := List.eq_append_cons_of_mem hclosed
      rw [quotedLiteralsFrom_none_segment hclose htext] at hlit
      have hsegment : FirstSegment Text.isStraightQuote
          (before ++ '"' :: (text ++ '"' :: rest)) text := by
        refine ⟨before, '"', rest, rfl, fun c hc => ?_, by decide, htext⟩
        have happ := (hstraight c (List.mem_append_left _ hc)).1
        simp [Text.isStraightQuote, (hplain c hc).1, happ]
      have hne : text ≠ [] := by
        intro hnil
        subst hnil
        exact hfirst hsegment
      rw [literalOf, if_neg (by simpa using hne), List.singleton_append] at hlit
      obtain ⟨rfl, -⟩ := List.cons.inj hlit
      rw [String.toList_ofList]
      exact hsegment
    · rw [quotedLiteralsFrom_none_unclosed hclose hclosed] at hlit
      cases hlit
  · have hplain : ∀ c ∈ cs, Unquoted c := fun c hc =>
      ⟨fun he => hquote (he ▸ hc), (hstraight c hc).2⟩
    rw [quotedLiteralsFrom_unquoted hplain] at hlit
    cases hlit

/-- The title that an invoke schema is given is `lit`, or another argument is missing. -/
def FillsTitle (schema : OpSchema) (clause lit : String) : Prop :=
  (∃ args, invokeArgs schema clause = .ok args ∧ args.get "title" = some (.string lit)) ∨
    ("id" ∈ schema.required ∧ invokeArgs schema clause = .error (idError schema))

/-- The one literal of a clause is its title. -/
def TitleAgrees (schema : OpSchema) (clause : String) : Prop :=
  ∀ lit, quotedLiterals clause = [lit] → FillsTitle schema clause lit

theorem titleError_ne_idError (schema : OpSchema) : titleError schema ≠ idError schema := by
  intro h
  have hlist := congrArg String.toList h
  simp only [titleError, idError, String.toList_append, List.append_cancel_left_eq] at hlist
  exact absurd hlist (by decide)

section Agree

variable {schema : OpSchema} {clause : String}

theorem fillsTitle_iff (hkind : schema.kind = .invoke) (htitle : "title" ∈ schema.required)
    {lit : String} :
    FillsTitle schema clause lit ↔
      (TitleIs clause lit ∨
        (∃ title, TitleIs clause title) ∧ "id" ∈ schema.required ∧ extractId clause = none) := by
  unfold FillsTitle
  rw [invokeArgs_eq hkind]
  simp only [← extractTitle_eq_some_iff]
  cases hfound : extractTitle clause with
  | none =>
    rw [if_pos ⟨htitle, rfl⟩]
    simp [titleError_ne_idError]
  | some title =>
    rw [if_neg (by simp)]
    by_cases hid : "id" ∈ schema.required ∧ extractId clause = none
    · rw [if_pos hid]
      simp [hid]
    · rw [if_neg hid]
      simp only [Except.ok.injEq, exists_eq_left', reduceCtorEq, hid, and_false, or_false,
        get_filledArgs]
      simp [neededTitle, htitle, hfound]

/-- The literal is the title exactly where the title scanner reads it too, or where it reads any
and the call fails for the id. -/
theorem invokeArgs_titleAgrees_iff (hkind : schema.kind = .invoke)
    (htitle : "title" ∈ schema.required) :
    TitleAgrees schema clause ↔ ∀ lit, quotedLiterals clause = [lit] →
      (TitleIs clause lit ∨
        (∃ title, TitleIs clause title) ∧ "id" ∈ schema.required ∧ extractId clause = none) :=
  forall₂_congr fun _ _ => fillsTitle_iff hkind htitle

end Agree

theorem invokeArgs_titleAgrees_iff_add : TitleAgrees todoAdd "add \"Buy milk\"" :=
  (invokeArgs_titleAgrees_iff rfl (by decide)).mpr fun lit hlit => by
    have hscan : quotedLiterals "add \"Buy milk\"" = ["Buy milk"] := by decide +kernel
    obtain ⟨rfl, -⟩ := List.cons.inj (hscan.symm.trans hlit)
    have hall : ("add \"Buy milk\"".toList.all fun c =>
        decide (c ≠ '\x27' ∧ c ≠ '\u201c' ∧ c ≠ '\u201d')) = true := by decide +kernel
    refine Or.inl (titleIs_of_straight hscan ?_ ?_)
    · exact fun c hc => of_decide_eq_true (List.all_eq_true.mp hall c hc)
    · have hfirst : firstQuoted "add \"Buy milk\"" = some "Buy milk" := by decide +kernel
      rw [← firstQuoted_eq_some_iff, hfirst]
      decide

/-- Two apostrophes are read as quotes, and curly quotes are not. -/
theorem titles_disagree : ¬ TitleAgrees todoAdd "don't forget: add \"Sam's milk\"" ∧
    ¬ TitleAgrees todoAdd "add \u201cBuy milk\u201d" := by
  have happ : invokeArgs todoAdd "don't forget: add \"Sam's milk\"" =
      .ok (.object [("title", .string "t forget: add \"Sam")]) := by decide +kernel
  have hcurly : invokeArgs todoAdd "add \u201cBuy milk\u201d" =
      .error (titleError todoAdd) := by decide +kernel
  constructor
  · intro h
    rcases h "Sam's milk" (by decide +kernel) with ⟨args, hargs, hget⟩ | ⟨hid, -⟩
    · obtain rfl := Except.ok.inj (happ.symm.trans hargs)
      exact absurd hget (by decide +kernel)
    · exact absurd hid (by decide)
  · intro h
    rcases h "Buy milk" (by decide +kernel) with ⟨args, hargs, -⟩ | ⟨hid, -⟩
    · cases hcurly.symm.trans hargs
    · exact absurd hid (by decide)

end Resolve

end GpuiAgent
