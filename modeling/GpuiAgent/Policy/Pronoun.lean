import GpuiAgent.Policy.Clause
import GpuiAgent.Policy.Literals

namespace GpuiAgent

open Framework Framework.Quotes

section Segments

@[simp] theorem literalOf_eq_nil {text : List Char} : literalOf text = [] ↔ text = [] := by
  cases text <;> simp [literalOf]

theorem literalOf_eq_singleton {text : List Char} (h : text ≠ []) :
    literalOf text = [.ofList text] := by
  cases text with
  | nil => exact absurd rfl h
  | cons c text => rfl

/-- Every literal is the text of a closed segment. -/
theorem segment_of_mem {s : String} {cs : List Char} (h : s ∈ quotedLiteralsFrom none cs) :
    ∃ before opening text close rest, cs = before ++ opening :: (text ++ close :: rest) ∧
      openQuote Text.closingQuote before = none ∧ Text.closingQuote opening = some close ∧
      close ∉ text ∧ s = .ofList text := by
  induction cs using Quotes.induction Text.closingQuote with
  | nil => cases h
  | plain c cs hc ih =>
    rw [quotedLiteralsFrom_none_plain hc] at h
    obtain ⟨before, opening, text, close, rest, rfl, hbefore, hrest⟩ := ih h
    exact ⟨c :: before, opening, text, close, rest, rfl,
      (openQuote_cons_plain hc before).trans hbefore, hrest⟩
  | unclosed c close cs hc hcs _ =>
    rw [quotedLiteralsFrom_none_unclosed hc hcs] at h
    cases h
  | segment c close text cs hc htext ih =>
    rw [quotedLiteralsFrom_none_segment hc htext, List.mem_append] at h
    obtain h | h := h
    · refine ⟨[], c, text, close, cs, rfl, rfl, hc, htext, ?_⟩
      cases text with
      | nil => cases h
      | cons first text => exact List.mem_singleton.mp h
    · obtain ⟨before, opening, text', close', rest, rfl, hbefore, hrest⟩ := ih h
      exact ⟨c :: (text ++ close :: before), opening, text', close', rest, by simp,
        (openQuote_segment hc htext before).trans hbefore, hrest⟩

/-- Without a straight quote and without a closing curly one, a text that leaves no quote open has
no quote. -/
theorem unquoted_of_openQuote_eq_none {cs : List Char} (hstraight : '"' ∉ cs)
    (hcurly : '\u201d' ∉ cs) (h : openQuote Text.closingQuote cs = none) :
    ∀ c ∈ cs, Unquoted c := by
  induction cs with
  | nil => exact fun c hc => absurd hc List.not_mem_nil
  | cons c cs ih =>
    rw [List.mem_cons, not_or] at hstraight hcurly
    cases hc : Text.closingQuote c with
    | none =>
      rw [openQuote_cons_plain hc] at h
      rw [List.forall_mem_cons]
      exact ⟨⟨Ne.symm hstraight.1, (closingQuote_eq_none.mp hc).2, Ne.symm hcurly.1⟩,
        ih hstraight.2 hcurly.2 h⟩
    | some close =>
      have hclose : close ∉ cs := by
        rcases closingQuote_eq_some hc with ⟨rfl, -⟩ | ⟨-, rfl⟩
        · exact absurd rfl hstraight.1
        · exact hcurly.2
      rw [openQuote_cons_unclosed hc hclose] at h
      cases h

end Segments

/-- The text begins with a quote and goes on, to its end, as what is behind it does: it is a row of
blocks `"x“`, and `x“”` stands behind it. -/
def Echoed (last post : List Char) : Prop :=
  ∃ x n rest, (∀ c ∈ x, Unquoted c) ∧
    last = (List.replicate (n + 1) ('"' :: (x ++ ['\u201c']))).flatten ∧
    post = x ++ '\u201c' :: '\u201d' :: rest

section Placed

variable {last post : List Char}

theorem Echoed.straight_mem (h : Echoed last post) : '"' ∈ last := by
  obtain ⟨x, n, rest, -, rfl, -⟩ := h
  rw [List.replicate_succ, List.flatten_cons]
  exact List.mem_append_left _ List.mem_cons_self

/-- An echoed text is read back: its first quotes are empty, and it is then found in curly ones. -/
theorem Echoed.literals (hpost : quotedLiteralsFrom none post = []) (h : Echoed last post) :
    quotedLiteralsFrom none ('"' :: (last ++ '"' :: post)) = [.ofList last] := by
  obtain ⟨x, n, rest, hx, hlast, rfl⟩ := h
  have hrest : quotedLiteralsFrom none rest = [] := by
    rw [quotedLiteralsFrom_unquoted_append hx,
      ← List.nil_append ('\u201d' :: rest), quotedLiteralsFrom_none_segment (by rfl) (by simp)]
      at hpost
    exact hpost
  have hcurly : '\u201d' ∉ last := by
    rw [hlast]
    simp only [List.mem_flatten, List.mem_replicate, not_exists, not_and]
    rintro block ⟨-, rfl⟩
    simp only [List.mem_cons, List.mem_append, List.not_mem_nil, or_false, not_or]
    exact ⟨by decide, fun hc => (hx _ hc).2.2 rfl, by decide⟩
  have hne : last ≠ [] := by
    rw [hlast, List.replicate_succ, List.flatten_cons]
    simp
  -- the blocks can be counted from behind as well
  have hflat : last = (List.replicate n ('"' :: (x ++ ['\u201c']))).flatten ++
      '"' :: (x ++ ['\u201c']) := by
    rw [hlast, List.replicate_succ', List.flatten_append, List.flatten_singleton]
  have htext : '"' :: (last ++ '"' :: (x ++ '\u201c' :: '\u201d' :: rest)) =
      '"' :: ([] ++ '"' :: (x ++ '\u201c' :: (last ++ '\u201d' :: rest))) := by
    nth_rewrite 1 [hlast]
    rw [hflat, List.replicate_succ, List.flatten_cons]
    simp
  rw [htext, quotedLiteralsFrom_none_segment (by rfl) List.not_mem_nil,
    quotedLiteralsFrom_unquoted_append hx, quotedLiteralsFrom_none_segment (by rfl) hcurly, hrest,
    literalOf_eq_singleton hne]
  rfl

/-- A text with a quote in it that is read back as one literal is echoed. -/
theorem echoed_of_literals (hpost : '"' ∉ post) (hmem : '"' ∈ last)
    (h : quotedLiteralsFrom none ('"' :: (last ++ '"' :: post)) = [.ofList last]) :
    Echoed last post := by
  obtain ⟨t, u, rfl, ht⟩ := List.eq_append_cons_of_mem hmem
  have hsplit : '"' :: (t ++ '"' :: u ++ '"' :: post) = '"' :: (t ++ '"' :: (u ++ '"' :: post)) := by
    simp
  rw [hsplit, quotedLiteralsFrom_none_segment (by rfl) ht] at h
  cases t with
  | cons c t =>
    -- the first literal stops at the quote inside the text
    obtain ⟨hfirst, -⟩ := List.cons.inj h
    have hlen := congrArg String.length hfirst
    simp at hlen
  | nil =>
    obtain ⟨before, opening, text, close, rest, hcs, hbefore, hopen, htext, hlit⟩ :=
      segment_of_mem (h ▸ List.mem_singleton_self _)
    obtain rfl : '"' :: u = text := String.ofList_injective hlit
    obtain ⟨rfl, rfl⟩ : opening = '\u201c' ∧ close = '\u201d' := by
      rcases closingQuote_eq_some hopen with ⟨-, rfl⟩ | hcurly
      · exact absurd List.mem_cons_self htext
      · exact hcurly
    -- all straight quotes are those of the text and the one behind it
    have hcount := congrArg (List.count '"') hcs
    simp only [List.count_append, List.count_cons, List.count_eq_zero_of_not_mem hpost] at hcount
    have hstraight : '"' ∉ before := List.count_eq_zero.mp (by simp at hcount; omega)
    have hquotes : ('"' : Char) ≠ '\u201c' := by decide
    obtain ⟨⟨n, hblocks⟩, hrest⟩ := echo_of_shift hstraight hquotes (by simpa using hcs)
    have hcurly : '\u201d' ∉ before := by
      intro hmem
      refine htext ?_
      rw [hblocks, List.replicate_succ, List.flatten_cons]
      simp [hmem]
    exact ⟨before, n, rest, unquoted_of_openQuote_eq_none hstraight hcurly hbefore, hblocks, hrest⟩

/-- What is put in quotes where no quote is open is read back when it has no quote itself or is
echoed. -/
theorem literals_quoted_iff (hpost : '"' ∉ post) (hliterals : quotedLiteralsFrom none post = []) :
    quotedLiteralsFrom none ('"' :: (last ++ '"' :: post)) = [.ofList last] ↔
      (last ≠ [] ∧ '"' ∉ last) ∨ Echoed last post := by
  by_cases hmem : '"' ∈ last
  · constructor
    · intro h
      exact .inr (echoed_of_literals hpost hmem h)
    · intro h
      obtain ⟨-, hno⟩ | h := h
      · exact absurd hmem hno
      · exact h.literals hliterals
  · rw [quotedLiteralsFrom_none_segment (by rfl) hmem, hliterals, List.append_nil]
    constructor
    · intro h
      refine .inl ⟨fun hnil => ?_, hmem⟩
      rw [hnil] at h
      cases h
    · intro h
      obtain ⟨hne, -⟩ | h := h
      · exact literalOf_eq_singleton hne
      · exact absurd h.straight_mem hmem

/-- Right behind a curly quote nothing closes, the text is not read back. -/
theorem literals_ne_of_unclosed {pre pronoun : List Char} (hne : pronoun ≠ [])
    (hplain : ∀ c ∈ pronoun, Unquoted c) (hclose : '\u201d' ∉ pre)
    (hclause : quotedLiteralsFrom none ('\u201c' :: pre ++ (pronoun ++ post)) = []) :
    quotedLiteralsFrom none ('\u201c' :: pre ++ '"' :: (last ++ '"' :: post)) ≠ [.ofList last] := by
  have hc : Text.closingQuote '\u201c' = some '\u201d' := by decide
  -- otherwise the clause would have a literal with the pronoun in it
  have hpost : '\u201d' ∉ post := by
    intro hmem
    obtain ⟨t, rest, rfl, ht⟩ := List.eq_append_cons_of_mem hmem
    have hcontent : '\u201d' ∉ pre ++ (pronoun ++ t) := by
      simp only [List.mem_append, not_or]
      exact ⟨hclose, fun hp => (hplain _ hp).2.2 rfl, ht⟩
    have hassoc : '\u201c' :: pre ++ (pronoun ++ (t ++ '\u201d' :: rest)) =
        '\u201c' :: ((pre ++ (pronoun ++ t)) ++ '\u201d' :: rest) := by simp
    rw [hassoc, quotedLiteralsFrom_none_segment hc hcontent, List.append_eq_nil_iff,
      literalOf_eq_nil] at hclause
    exact hne (List.append_eq_nil_iff.mp (List.append_eq_nil_iff.mp hclause.1).2).1
  intro h
  by_cases hlast : '\u201d' ∈ last
  · obtain ⟨t, rest, rfl, ht⟩ := List.eq_append_cons_of_mem hlast
    have hcontent : '\u201d' ∉ pre ++ '"' :: t := by
      simp only [List.mem_append, List.mem_cons, not_or]
      exact ⟨hclose, by decide, ht⟩
    have hassoc : '\u201c' :: pre ++ '"' :: (t ++ '\u201d' :: rest ++ '"' :: post) =
        '\u201c' :: ((pre ++ '"' :: t) ++ '\u201d' :: (rest ++ '"' :: post)) := by simp
    rw [hassoc, quotedLiteralsFrom_none_segment hc hcontent,
      literalOf_eq_singleton (by simp)] at h
    have htext := String.ofList_injective (List.cons.inj h).1
    exact hcontent (htext ▸ by simp)
  · have hno : '\u201d' ∉ pre ++ '"' :: (last ++ '"' :: post) := by
      simp only [List.mem_append, List.mem_cons, not_or]
      exact ⟨hclose, by decide, hlast, by decide, hpost⟩
    rw [List.cons_append, quotedLiteralsFrom_none_unclosed hc hno] at h
    cases h

/-- Behind a curly quote that is open, the text is not read back. -/
theorem literals_ne_of_open {pre pronoun : List Char} (hpre : '"' ∉ pre) (hne : pronoun ≠ [])
    (hplain : ∀ c ∈ pronoun, Unquoted c)
    (hclause : quotedLiteralsFrom none (pre ++ (pronoun ++ post)) = [])
    (hopen : openQuote Text.closingQuote pre ≠ none) :
    quotedLiteralsFrom none (pre ++ '"' :: (last ++ '"' :: post)) ≠ [.ofList last] := by
  induction pre using Quotes.induction Text.closingQuote with
  | nil => exact absurd rfl hopen
  | plain c pre hc ih =>
    rw [List.mem_cons, not_or] at hpre
    rw [openQuote_cons_plain hc] at hopen
    rw [List.cons_append, quotedLiteralsFrom_none_plain hc] at hclause ⊢
    exact ih hpre.2 hclause hopen
  | segment c close text pre hc htext ih =>
    have hassoc (cs : List Char) :
        c :: (text ++ close :: pre) ++ cs = c :: (text ++ close :: (pre ++ cs)) := by simp
    have hpre' : '"' ∉ pre := fun hmem => hpre (by simp [hmem])
    rw [openQuote_segment hc htext] at hopen
    rw [hassoc, quotedLiteralsFrom_none_segment hc htext, List.append_eq_nil_iff] at hclause
    rw [hassoc, quotedLiteralsFrom_none_segment hc htext, hclause.1]
    exact ih hpre' hclause.2 hopen
  | unclosed c close pre hc hclose _ =>
    rw [List.mem_cons, not_or] at hpre
    obtain ⟨rfl, rfl⟩ : c = '\u201c' ∧ close = '\u201d' := by
      rcases closingQuote_eq_some hc with ⟨rfl, -⟩ | hcurly
      · exact absurd rfl hpre.1
      · exact hcurly
    exact literals_ne_of_unclosed hne hplain hclose hclause

/-- Where the pronoun of a clause without a literal is replaced by the quoted text, the text is the
one literal when no quote is open there and it can be read back. -/
theorem literals_placed_iff {pre pronoun : List Char} (hpre : '"' ∉ pre) (hpost : '"' ∉ post)
    (hne : pronoun ≠ []) (hplain : ∀ c ∈ pronoun, Unquoted c)
    (hclause : quotedLiteralsFrom none (pre ++ (pronoun ++ post)) = []) :
    quotedLiteralsFrom none (pre ++ '"' :: (last ++ '"' :: post)) = [.ofList last] ↔
      openQuote Text.closingQuote pre = none ∧ ((last ≠ [] ∧ '"' ∉ last) ∨ Echoed last post) := by
  by_cases hopen : openQuote Text.closingQuote pre = none
  · rw [quotedLiteralsFrom_append hopen, quotedLiteralsFrom_unquoted_append hplain,
      List.append_eq_nil_iff] at hclause
    rw [quotedLiteralsFrom_append hopen, hclause.1, List.nil_append,
      literals_quoted_iff hpost hclause.2, and_iff_right hopen]
  · exact iff_of_false (literals_ne_of_open hpre hne hplain hclause hopen) fun h => hopen h.1

end Placed

section Substitute

def pronouns : List String := ["it", "It", "them", "Them"]

theorem pronoun_plain {pronoun : List Char} (h : String.ofList pronoun ∈ pronouns) :
    pronoun ≠ [] ∧ ∀ c ∈ pronoun, Unquoted c := by
  have hall : ∀ word ∈ pronouns, word.toList ≠ [] ∧
      word.toList.all (fun c => c ≠ '"' && c ≠ '\u201c' && c ≠ '\u201d') = true := by decide
  have hword := hall _ h
  rw [String.toList_ofList, List.all_eq_true] at hword
  exact ⟨hword.1, fun c hc => by simpa [Unquoted, and_assoc] using hword.2 c hc⟩

/-- The first pronoun among the words of a clause, with the text before and after it. -/
def PronounAt (clause : String) (pre pronoun post : List Char) : Prop :=
  ∃ before after, splitChars (· = ' ') clause.toList = before ++ pronoun :: after ∧
    (∀ word ∈ before, String.ofList word ∉ pronouns) ∧ String.ofList pronoun ∈ pronouns ∧
    pre = before.flatMap (· ++ [' ']) ∧ post = after.flatMap (' ' :: ·)

theorem intercalate_append_cons {α : Type*} (sep : α) (before : List (List α)) (word : List α)
    (after : List (List α)) : [sep].intercalate (before ++ word :: after) =
      before.flatMap (· ++ [sep]) ++ (word ++ after.flatMap (sep :: ·)) := by
  have htail : ∀ word : List α, [sep].intercalate (word :: after) =
      word ++ after.flatMap (sep :: ·) := by
    induction after with
    | nil => simp
    | cons next after ih =>
      intro word
      rw [List.intercalate_cons_cons, ih next, List.flatMap_cons]
      simp
  induction before with
  | nil => exact htail word
  | cons first before ih =>
    rw [List.cons_append, List.intercalate_cons_of_ne_nil (by simp), ih, List.flatMap_cons]
    simp

variable {clause : String} {typed : List String} {last : String} {pre pronoun post : List Char}

theorem PronounAt.toList (h : PronounAt clause pre pronoun post) :
    clause.toList = pre ++ (pronoun ++ post) := by
  obtain ⟨before, after, hwords, -, -, rfl, rfl⟩ := h
  have hjoin : [' '].intercalate (splitChars (· = ' ') clause.toList) = clause.toList :=
    List.intercalate_splitOn ' '
  rw [← hjoin, hwords, intercalate_append_cons]

theorem PronounAt.isPronoun (h : PronounAt clause pre pronoun post) :
    String.ofList pronoun ∈ pronouns := by
  obtain ⟨before, after, -, -, hpronoun, -⟩ := h
  exact hpronoun

theorem replacePronoun_of_notMem {words : List String} (h : ∀ word ∈ words, word ∉ pronouns)
    (last : String) (rest : List String) :
    replacePronoun last (words ++ rest) = words ++ replacePronoun last rest := by
  induction words with
  | nil => rfl
  | cons word words ih =>
    rw [List.forall_mem_cons] at h
    rw [List.cons_append, replacePronoun, if_neg (by simpa [pronouns] using h.1), ih h.2]
    rfl

theorem substitutePronouns_eq (htyped : typed.getLast? = some last)
    (hclause : '"' ∉ clause.toList) : substitutePronouns clause typed = " ".intercalate
      (replacePronoun last ((splitChars (· = ' ') clause.toList).map String.ofList)) := by
  simp only [substitutePronouns, htyped, List.contains_eq_mem, decide_eq_true_eq, if_neg hclause]

theorem toList_intercalate_space (words : List (List Char)) :
    (" ".intercalate (words.map String.ofList)).toList = [' '].intercalate words := by
  have hlists : (words.map String.ofList).map String.toList = words := by
    rw [List.map_map]
    exact (List.map_congr_left fun word _ => String.toList_ofList).trans (List.map_id _)
  rw [String.toList_intercalate, hlists]
  rfl

/-- The first pronoun is replaced by the quoted text, and nothing else is touched. -/
theorem substitutePronouns_of_pronounAt (htyped : typed.getLast? = some last)
    (hclause : '"' ∉ clause.toList) (h : PronounAt clause pre pronoun post) :
    (substitutePronouns clause typed).toList =
      pre ++ '"' :: (last.toList ++ '"' :: post) := by
  obtain ⟨before, after, hwords, hbefore, hpronoun, rfl, rfl⟩ := h
  have hno : ∀ word ∈ before.map String.ofList, word ∉ pronouns := by
    intro word hword
    obtain ⟨chars, hchars, rfl⟩ := List.mem_map.mp hword
    exact hbefore chars hchars
  have hquoted : String.ofList ('"' :: (last.toList ++ ['"'])) = "\"" ++ last ++ "\"" := by
    apply String.toList_injective
    simp
  have hreplace : replacePronoun last ((before ++ pronoun :: after).map String.ofList) =
      (before ++ ('"' :: (last.toList ++ ['"'])) :: after).map String.ofList := by
    rw [List.map_append, replacePronoun_of_notMem hno, List.map_cons, replacePronoun,
      if_pos (by simpa [pronouns] using hpronoun), List.map_append, List.map_cons, hquoted]
  rw [substitutePronouns_eq htyped hclause, hwords, hreplace, toList_intercalate_space,
    intercalate_append_cons]
  simp

theorem exists_pronounAt_of_ne (h : substitutePronouns clause typed ≠ clause) :
    ∃ last pre pronoun post, typed.getLast? = some last ∧ '"' ∉ clause.toList ∧
      PronounAt clause pre pronoun post := by
  cases htyped : typed.getLast? with
  | none => exact absurd (by simp [substitutePronouns, htyped]) h
  | some last =>
    by_cases hclause : '"' ∈ clause.toList
    · exact absurd (by simp [substitutePronouns, htyped, hclause]) h
    · cases hfind : (splitChars (· = ' ') clause.toList).find? fun word =>
          decide (String.ofList word ∈ pronouns) with
      | some pronoun =>
        obtain ⟨hpronoun, before, after, hwords, hbefore⟩ := List.find?_eq_some_iff_append.mp hfind
        exact ⟨last, _, pronoun, _, rfl, hclause, before, after, hwords,
          fun word hword => by simpa using hbefore word hword, by simpa using hpronoun, rfl, rfl⟩
      | none =>
        -- without a pronoun the words are joined as they were
        refine absurd ?_ h
        have hno : ∀ word ∈ (splitChars (· = ' ') clause.toList).map String.ofList,
            word ∉ pronouns := by
          intro word hword
          obtain ⟨chars, hchars, rfl⟩ := List.mem_map.mp hword
          simpa using List.find?_eq_none.mp hfind chars hchars
        have hkeep := replacePronoun_of_notMem hno last []
        rw [replacePronoun, List.append_nil] at hkeep
        apply String.toList_injective
        rw [substitutePronouns_eq htyped hclause, hkeep, toList_intercalate_space]
        exact List.intercalate_splitOn ' '

theorem literals_substituted_iff (htyped : typed.getLast? = some last)
    (hclause : '"' ∉ clause.toList) (hat : PronounAt clause pre pronoun post)
    (hnone : quotedLiterals clause = []) :
    quotedLiterals (substitutePronouns clause typed) = [last] ↔
      openQuote Text.closingQuote pre = none ∧
        ((last ≠ "" ∧ '"' ∉ last.toList) ∨ Echoed last.toList post) := by
  obtain ⟨hne, hplain⟩ := pronoun_plain hat.isPronoun
  rw [hat.toList, List.mem_append, List.mem_append, not_or, not_or] at hclause
  rw [quotedLiterals, hat.toList] at hnone
  have hlast : last ≠ "" ↔ last.toList ≠ [] := not_congr String.toList_eq_nil_iff.symm
  have hplaced := @literals_placed_iff last.toList post pre pronoun hclause.1 hclause.2.2 hne hplain
    hnone
  rw [String.ofList_toList] at hplaced
  rw [quotedLiterals, substitutePronouns_of_pronounAt htyped (hat.toList ▸ by simp [hclause]) hat,
    hplaced, hlast]

/-- A substitution that happens leaves the text typed last as the one literal of the clause when
the clause had none, no quote was open at the pronoun and the text can be read back. -/
theorem substitutePronouns_literal_iff (clause : String) (typed : List String) :
    (substitutePronouns clause typed ≠ clause → quotedLiterals clause = [] ∧
      ∃ last, typed.getLast? = some last ∧
        quotedLiterals (substitutePronouns clause typed) = [last]) ↔
    ∀ last pre pronoun post, typed.getLast? = some last → '"' ∉ clause.toList →
      PronounAt clause pre pronoun post → quotedLiterals clause = [] ∧
        openQuote Text.closingQuote pre = none ∧
        ((last ≠ "" ∧ '"' ∉ last.toList) ∨ Echoed last.toList post) := by
  constructor
  · intro h last pre pronoun post htyped hclause hat
    have hresult := substitutePronouns_of_pronounAt htyped hclause hat
    have hchanged : substitutePronouns clause typed ≠ clause := by
      intro heq
      rw [heq] at hresult
      exact hclause (hresult ▸ by simp)
    obtain ⟨hnone, last', htyped', hliterals⟩ := h hchanged
    obtain rfl : last = last' := Option.some_inj.mp (htyped.symm.trans htyped')
    exact ⟨hnone, (literals_substituted_iff htyped hclause hat hnone).mp hliterals⟩
  · intro h hchanged
    obtain ⟨last, pre, pronoun, post, htyped, hclause, hat⟩ := exists_pronounAt_of_ne hchanged
    obtain ⟨hnone, hread⟩ := h last pre pronoun post htyped hclause hat
    exact ⟨hnone, last, htyped, (literals_substituted_iff htyped hclause hat hnone).mpr hread⟩

example : quotedLiterals (substitutePronouns "mark it \u201c\u201d done" ["\" \u201c"]) =
    ["\" \u201c"] := by decide +kernel

/-- The clause is changed, and the text with quotes in it is not its literal. -/
theorem substitutePronouns_says : ¬ ∀ (clause : String) (typed : List String),
    substitutePronouns clause typed ≠ clause → quotedLiterals clause = [] ∧
      ∃ last, typed.getLast? = some last ∧
        quotedLiterals (substitutePronouns clause typed) = [last] := by
  intro h
  obtain ⟨-, last, hlast, hliterals⟩ := h "mark it done" ["say \"hi\""] (by decide +kernel)
  obtain rfl : "say \"hi\"" = last := Option.some_inj.mp hlast
  revert hliterals
  decide +kernel

end Substitute

end GpuiAgent
