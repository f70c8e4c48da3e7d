import GpuiAgent.Framework.Quotes
import GpuiAgent.Policy.Evidence
import GpuiAgent.Policy.Text
import Mathlib.Data.List.TakeWhile

namespace GpuiAgent

open Framework Framework.Quotes

theorem closingQuote_eq_some {c close : Char} (h : Text.closingQuote c = some close) :
    (c = '"' ∧ close = '"') ∨ (c = '\u201c' ∧ close = '\u201d') := by
  unfold Text.closingQuote at h
  split at h
  · exact Or.inl ⟨rfl, (Option.some_inj.mp h).symm⟩
  · exact Or.inr ⟨rfl, (Option.some_inj.mp h).symm⟩
  · cases h

theorem closingQuote_eq_none {c : Char} :
    Text.closingQuote c = none ↔ c ≠ '"' ∧ c ≠ '\u201c' := by
  unfold Text.closingQuote
  split <;> simp_all

/-- What a closed segment gives. -/
def literalOf (text : List Char) : List String := if text.isEmpty then [] else [.ofList text]

section Evidence

theorem quotedLiteralsFrom_cons (c : Char) (cs : List Char) :
    quotedLiteralsFrom none (c :: cs) =
      quotedLiteralsFrom ((Text.closingQuote c).map fun close => (close, [])) cs := by
  rw [quotedLiteralsFrom]
  split_ifs with hs hc
  · rw [hs]; rfl
  · rw [hc]; rfl
  · rw [closingQuote_eq_none.mpr ⟨hs, hc⟩]; rfl

theorem quotedLiteralsFrom_unclosed {close : Char} {cs : List Char} (h : close ∉ cs)
    (text : List Char) : quotedLiteralsFrom (some (close, text)) cs = [] := by
  induction cs generalizing text with
  | nil => rfl
  | cons c cs ih =>
    rw [List.mem_cons, not_or] at h
    rw [quotedLiteralsFrom, if_neg (Ne.symm h.1)]
    exact ih h.2 _

theorem quotedLiteralsFrom_segment {close : Char} {text : List Char} (h : close ∉ text)
    (before cs : List Char) :
    quotedLiteralsFrom (some (close, before)) (text ++ close :: cs) =
      literalOf (before.reverse ++ text) ++ quotedLiteralsFrom none cs := by
  induction text generalizing before with
  | nil =>
    rw [List.nil_append, quotedLiteralsFrom, if_pos rfl, List.append_nil, literalOf]
    cases before <;> simp
  | cons c text ih =>
    rw [List.mem_cons, not_or] at h
    rw [List.cons_append, quotedLiteralsFrom, if_neg (Ne.symm h.1), ih h.2]
    simp

theorem quotedLiteralsFrom_none_plain {c : Char} (h : Text.closingQuote c = none)
    (cs : List Char) : quotedLiteralsFrom none (c :: cs) = quotedLiteralsFrom none cs := by
  rw [quotedLiteralsFrom_cons, h]
  rfl

theorem quotedLiteralsFrom_none_unclosed {c close : Char} {cs : List Char}
    (hc : Text.closingQuote c = some close) (hcs : close ∉ cs) :
    quotedLiteralsFrom none (c :: cs) = [] := by
  rw [quotedLiteralsFrom_cons, hc]
  exact quotedLiteralsFrom_unclosed hcs []

theorem quotedLiteralsFrom_none_segment {c close : Char} {text : List Char}
    (hc : Text.closingQuote c = some close) (htext : close ∉ text) (cs : List Char) :
    quotedLiteralsFrom none (c :: (text ++ close :: cs)) =
      literalOf text ++ quotedLiteralsFrom none cs := by
  rw [quotedLiteralsFrom_cons, hc]
  exact quotedLiteralsFrom_segment htext [] cs

/-- What is read up to a point outside quotes does not depend on what follows. -/
theorem quotedLiteralsFrom_append {before : List Char}
    (h : openQuote Text.closingQuote before = none) (cs : List Char) :
    quotedLiteralsFrom none (before ++ cs) =
      quotedLiteralsFrom none before ++ quotedLiteralsFrom none cs := by
  induction before using Quotes.induction Text.closingQuote with
  | nil => rfl
  | plain c before hc ih =>
    rw [openQuote_cons_plain hc] at h
    rw [List.cons_append, quotedLiteralsFrom_none_plain hc, quotedLiteralsFrom_none_plain hc, ih h]
  | unclosed c close before hc hbefore _ =>
    rw [openQuote_cons_unclosed hc hbefore] at h
    cases h
  | segment c close text before hc htext ih =>
    rw [openQuote_segment hc htext] at h
    have hassoc : c :: (text ++ close :: before) ++ cs = c :: (text ++ close :: (before ++ cs)) := by
      simp
    rw [hassoc, quotedLiteralsFrom_none_segment hc htext, quotedLiteralsFrom_none_segment hc htext,
      ih h, List.append_assoc]

/-- Behind a quote that is never closed nothing is read. -/
theorem quotedLiteralsFrom_append_open {before cs : List Char} {close : Char}
    (h : openQuote Text.closingQuote before = some close) (hcs : close ∉ cs) :
    quotedLiteralsFrom none (before ++ cs) = quotedLiteralsFrom none before := by
  induction before using Quotes.induction Text.closingQuote with
  | nil => cases h
  | plain c before hc ih =>
    rw [openQuote_cons_plain hc] at h
    rw [List.cons_append, quotedLiteralsFrom_none_plain hc, quotedLiteralsFrom_none_plain hc, ih h]
  | unclosed c close' before hc hbefore _ =>
    rw [openQuote_cons_unclosed hc hbefore] at h
    obtain rfl := Option.some_inj.mp h
    have hall : close' ∉ before ++ cs := by
      rw [List.mem_append, not_or]
      exact ⟨hbefore, hcs⟩
    rw [List.cons_append, quotedLiteralsFrom_none_unclosed hc hall,
      quotedLiteralsFrom_none_unclosed hc hbefore]
  | segment c close' text before hc htext ih =>
    rw [openQuote_segment hc htext] at h
    have hassoc : c :: (text ++ close' :: before) ++ cs =
        c :: (text ++ close' :: (before ++ cs)) := by simp
    rw [hassoc, quotedLiteralsFrom_none_segment hc htext,
      quotedLiteralsFrom_none_segment hc htext, ih h]

/-- A character that the scanner treats as text, inside quotes and outside. -/
def Unquoted (c : Char) : Prop := c ≠ '"' ∧ c ≠ '\u201c' ∧ c ≠ '\u201d'

theorem Unquoted.closingQuote {c : Char} (h : Unquoted c) : Text.closingQuote c = none :=
  closingQuote_eq_none.mpr ⟨h.1, h.2.1⟩

theorem Unquoted.ne_close {c opening close : Char} (h : Unquoted c)
    (ho : Text.closingQuote opening = some close) : c ≠ close := by
  rcases closingQuote_eq_some ho with ⟨-, rfl⟩ | ⟨-, rfl⟩
  · exact h.1
  · exact h.2.2

theorem openQuote_unquoted {cs : List Char} (h : ∀ c ∈ cs, Unquoted c) :
    openQuote Text.closingQuote cs = none :=
  openQuote_of_plain fun c hc => (h c hc).closingQuote

theorem quotedLiteralsFrom_unquoted {cs : List Char} (h : ∀ c ∈ cs, Unquoted c) :
    quotedLiteralsFrom none cs = [] := by
  induction cs with
  | nil => rfl
  | cons c cs ih =>
    rw [List.forall_mem_cons] at h
    rw [quotedLiteralsFrom_none_plain h.1.closingQuote]
    exact ih h.2

theorem quotedLiteralsFrom_unquoted_append {w : List Char} (h : ∀ c ∈ w, Unquoted c)
    (cs : List Char) : quotedLiteralsFrom none (w ++ cs) = quotedLiteralsFrom none cs := by
  rw [quotedLiteralsFrom_append (openQuote_unquoted h), quotedLiteralsFrom_unquoted h,
    List.nil_append]

/-- The quote that is open is not a character of plain text. -/
theorem not_unquoted_of_open {cs : List Char} {close : Char}
    (h : openQuote Text.closingQuote cs = some close) : ¬ Unquoted close := by
  obtain ⟨opening, -, hopening⟩ := exists_opening h
  exact fun hplain => hplain.ne_close hopening rfl

theorem openQuote_append_unquoted {w : List Char} (h : ∀ c ∈ w, Unquoted c) (cs : List Char) :
    openQuote Text.closingQuote (cs ++ w) = openQuote Text.closingQuote cs := by
  cases hq : openQuote Text.closingQuote cs with
  | none => rw [openQuote_append hq, openQuote_unquoted h]
  | some close => exact openQuote_append_open hq fun hmem => not_unquoted_of_open hq (h close hmem)

theorem quotedLiteralsFrom_append_unquoted {w : List Char} (h : ∀ c ∈ w, Unquoted c)
    (cs : List Char) : quotedLiteralsFrom none (cs ++ w) = quotedLiteralsFrom none cs := by
  induction cs using Quotes.induction Text.closingQuote with
  | nil => exact quotedLiteralsFrom_unquoted h
  | plain c cs hc ih =>
    rw [List.cons_append, quotedLiteralsFrom_none_plain hc, quotedLiteralsFrom_none_plain hc, ih]
  | unclosed c close cs hc hcs _ =>
    have hw : close ∉ cs ++ w := by
      rw [List.mem_append, not_or]
      exact ⟨hcs, fun hmem => (h close hmem).ne_close hc rfl⟩
    rw [List.cons_append, quotedLiteralsFrom_none_unclosed hc hw,
      quotedLiteralsFrom_none_unclosed hc hcs]
  | segment c close text cs hc htext ih =>
    have hassoc : c :: (text ++ close :: cs) ++ w = c :: (text ++ close :: (cs ++ w)) := by simp
    rw [hassoc, quotedLiteralsFrom_none_segment hc htext, quotedLiteralsFrom_none_segment hc htext,
      ih]

theorem quotedLiteralsFrom_dropWhile {drop : Char → Bool} (h : ∀ c, drop c = true → Unquoted c)
    (cs : List Char) :
    quotedLiteralsFrom none (cs.dropWhile drop) = quotedLiteralsFrom none cs := by
  have hw : ∀ c ∈ cs.takeWhile drop, Unquoted c := fun c hc => h c (List.mem_takeWhile_imp hc)
  have happ := quotedLiteralsFrom_unquoted_append hw (cs.dropWhile drop)
  rw [List.takeWhile_append_dropWhile] at happ
  exact happ.symm

/-- Cutting unquoted characters off the end leaves the literals and the open quote. -/
theorem trimEndMatches_quotes {drop : Char → Bool} (h : ∀ c, drop c = true → Unquoted c)
    (cs : List Char) :
    quotedLiteralsFrom none (trimEndMatches drop cs) = quotedLiteralsFrom none cs ∧
      openQuote Text.closingQuote (trimEndMatches drop cs) = openQuote Text.closingQuote cs := by
  have hw : ∀ c ∈ (cs.reverse.takeWhile drop).reverse, Unquoted c := fun c hc =>
    h c (List.mem_takeWhile_imp (List.mem_reverse.mp hc))
  have hcs : cs = trimEndMatches drop cs ++ (cs.reverse.takeWhile drop).reverse := by
    rw [trimEndMatches, ← List.reverse_append, List.takeWhile_append_dropWhile, List.reverse_reverse]
  have hlit := quotedLiteralsFrom_append_unquoted hw (trimEndMatches drop cs)
  have hopen := openQuote_append_unquoted hw (trimEndMatches drop cs)
  rw [← hcs] at hlit hopen
  exact ⟨hlit.symm, hopen.symm⟩

theorem Unquoted.of_isWhitespace (c : Char) (h : isWhitespace c = true) : Unquoted c := by
  refine ⟨?_, ?_, ?_⟩ <;> (intro hc; rw [hc] at h; revert h; decide)

theorem quotedLiterals_trim (s : String) : quotedLiterals (trim s) = quotedLiterals s := by
  have hend := (trimEndMatches_quotes Unquoted.of_isWhitespace
    (s.toList.dropWhile isWhitespace)).1
  rw [trimEndMatches, quotedLiteralsFrom_dropWhile Unquoted.of_isWhitespace] at hend
  rw [quotedLiterals, trim, String.toList_ofList]
  exact hend

end Evidence

namespace Text

/-- The literals of a text without their offsets. -/
def literals (cs : List Char) : List String := (quotedLiteralsFrom 0 0 cs).map Prod.snd

theorem map_snd_quotedLiteralsFrom (offset skip : Nat) (cs : List Char) :
    (quotedLiteralsFrom offset skip cs).map Prod.snd = literals (cs.drop skip) := by
  induction cs generalizing offset skip with
  | nil => rw [List.drop_nil]; rfl
  | cons c cs ih =>
    cases skip with
    | succ skip =>
      rw [quotedLiteralsFrom, if_pos (Nat.succ_pos skip)]
      exact ih (offset + 1) skip
    | zero =>
      rw [List.drop_zero, literals, quotedLiteralsFrom, quotedLiteralsFrom]
      simp only [lt_irrefl, if_false]
      cases closingQuote c with
      | none => rw [ih, ih]
      | some close =>
        dsimp only
        split_ifs with hend hempty
        · rw [ih, ih]
        · simp [ih]
        · simp [ih]

theorem literals_plain {c : Char} (h : closingQuote c = none) (cs : List Char) :
    literals (c :: cs) = literals cs := by
  rw [literals, quotedLiteralsFrom, if_neg (lt_irrefl 0), h]
  exact map_snd_quotedLiteralsFrom 1 0 cs

theorem literals_unclosed {c close : Char} {cs : List Char} (hc : closingQuote c = some close)
    (hcs : close ∉ cs) : literals (c :: cs) = literals cs := by
  have htake : cs.takeWhile (· ≠ close) = cs :=
    List.takeWhile_eq_self_iff.mpr fun a ha => decide_eq_true fun he => hcs (he ▸ ha)
  rw [literals, quotedLiteralsFrom, if_neg (lt_irrefl 0), hc]
  simp only [htake, if_true]
  exact map_snd_quotedLiteralsFrom 1 0 cs

theorem literals_segment {c close : Char} {text : List Char} (hc : closingQuote c = some close)
    (htext : close ∉ text) (cs : List Char) :
    literals (c :: (text ++ close :: cs)) = literalOf text ++ literals cs := by
  have htake : (text ++ close :: cs).takeWhile (· ≠ close) = text := by
    have hpos : ∀ a ∈ text, decide (a ≠ close) = true := fun a ha =>
      decide_eq_true fun he => htext (he ▸ ha)
    rw [List.takeWhile_append_of_pos hpos]
    simp
  have hlen : ¬ text.length = (text ++ close :: cs).length := by simp
  have hdrop : (text ++ close :: cs).drop (text.length + 1) = cs := by simp
  rw [literals, quotedLiteralsFrom, if_neg (lt_irrefl 0), hc]
  simp only [htake, if_neg hlen, List.map_append, map_snd_quotedLiteralsFrom, hdrop, literalOf]
  split_ifs <;> rfl

end Text

/-- The quotes of the other kind than `opening`. -/
def otherQuote (opening c : Char) : Option Char :=
  if c = opening then none else Text.closingQuote c

/-- After a quote that is never closed, a literal in quotes of the other kind. -/
def LateLiteral (goal : List Char) : Prop :=
  ∃ before opening close rest, goal = before ++ opening :: rest ∧
    openQuote Text.closingQuote before = none ∧ Text.closingQuote opening = some close ∧
      close ∉ rest ∧ HasSegment (otherQuote opening) rest

theorem closingQuote_of_otherQuote {opening c close : Char}
    (h : otherQuote opening c = some close) : Text.closingQuote c = some close := by
  unfold otherQuote at h
  split_ifs at h
  exact h

theorem otherQuote_unique {opening c c' close close' : Char}
    (ho : (Text.closingQuote opening).isSome) (h : otherQuote opening c = some close)
    (h' : otherQuote opening c' = some close') : close = close' := by
  obtain ⟨closeO, ho⟩ := Option.isSome_iff_exists.mp ho
  unfold otherQuote at h h'
  split_ifs at h h' with hc hc'
  have hopening := closingQuote_eq_some ho
  rcases closingQuote_eq_some h with ⟨rfl, rfl⟩ | ⟨rfl, rfl⟩ <;>
    rcases closingQuote_eq_some h' with ⟨rfl, rfl⟩ | ⟨rfl, rfl⟩ <;> grind

/-- Where one kind of quote cannot be closed, the second scanner finds exactly the literals of the
other kind. -/
theorem Text.literals_eq_nil_iff {opening close : Char}
    (ho : Text.closingQuote opening = some close) {cs : List Char} (hcs : close ∉ cs) :
    Text.literals cs = [] ↔ ¬ HasSegment (otherQuote opening) cs := by
  have hsome : (Text.closingQuote opening).isSome := by rw [ho]; rfl
  induction cs using Quotes.induction (otherQuote opening) with
  | nil => exact iff_of_true rfl not_hasSegment_nil
  | plain c cs hc ih =>
    rw [List.mem_cons, not_or] at hcs
    rw [hasSegment_plain hc]
    refine Iff.trans ?_ (ih hcs.2)
    by_cases hopen : c = opening
    · rw [hopen, literals_unclosed ho hcs.2]
    · rw [otherQuote, if_neg hopen] at hc
      rw [literals_plain hc]
  | unclosed c close' cs hc hclose ih =>
    -- nothing after the quote closes a quote of this kind
    have hnone : ∀ a ⊆ cs, ¬ HasSegment (otherQuote opening) a := by
      intro a ha ⟨before, c', text, close₂, rest, h, _, hc', _⟩
      rw [otherQuote_unique hsome hc hc'] at hclose
      exact hclose (ha (by simp [h]))
    rw [List.mem_cons, not_or] at hcs
    have hq : Text.closingQuote c = some close' := closingQuote_of_otherQuote hc
    rw [literals_unclosed hq hclose]
    refine iff_of_true ((ih hcs.2).mpr (hnone cs (List.Subset.refl cs))) ?_
    intro ⟨before, c', text, close₂, rest, h, hbefore, hc', htext, hne⟩
    rw [split_unclosed hc hclose h hbefore] at h
    obtain ⟨rfl, hrest⟩ := List.cons.inj h
    rw [hc] at hc'
    obtain rfl := Option.some_inj.mp hc'
    exact hclose (by simp [hrest])
  | segment c close' text cs hc htext ih =>
    have hq : Text.closingQuote c = some close' := closingQuote_of_otherQuote hc
    have hcs' : close ∉ cs := fun hmem => hcs (by simp [hmem])
    rw [literals_segment hq htext]
    cases text with
    | nil =>
      rw [List.nil_append, hasSegment_empty hc]
      exact ih hcs'
    | cons first text =>
      refine iff_of_false (by simp [literalOf]) (not_not_intro ?_)
      exact ⟨[], c, first :: text, close', cs, rfl, rfl, hc, htext, List.cons_ne_nil _ _⟩

/-- The two literal scanners agree unless a literal stands after a quote that is never closed. -/
theorem quotedLiterals_agree_iff (goal : String) :
    quotedLiterals goal = (Text.quotedLiterals goal).map Prod.snd ↔ ¬ LateLiteral goal.toList := by
  change quotedLiteralsFrom none goal.toList = Text.literals goal.toList ↔ _
  induction goal.toList using Quotes.induction Text.closingQuote with
  | nil =>
    refine iff_of_true rfl ?_
    intro ⟨before, opening, close, rest, h, _⟩
    simp at h
  | plain c cs hc ih =>
    rw [quotedLiteralsFrom_none_plain hc, Text.literals_plain hc, ih, not_iff_not]
    constructor
    · intro ⟨before, opening, close, rest, h, hbefore, hlate⟩
      exact ⟨c :: before, opening, close, rest, by rw [h]; rfl,
        (openQuote_cons_plain hc before).trans hbefore, hlate⟩
    · intro ⟨before, opening, close, rest, h, hbefore, hopen, hlate⟩
      rcases split_plain hc h hbefore with rfl | ⟨before', -, hcs, hbefore'⟩
      · obtain ⟨rfl, -⟩ := List.cons.inj h
        rw [hc] at hopen
        cases hopen
      · exact ⟨before', opening, close, rest, hcs, hbefore', hopen, hlate⟩
  | unclosed c close cs hc hcs _ =>
    rw [quotedLiteralsFrom_none_unclosed hc hcs, Text.literals_unclosed hc hcs, eq_comm,
      Text.literals_eq_nil_iff hc hcs, not_iff_not]
    constructor
    · intro hlate
      exact ⟨[], c, close, cs, rfl, rfl, hc, hcs, hlate⟩
    · intro ⟨before, opening, close', rest, h, hbefore, _, _, hlate⟩
      rw [split_unclosed hc hcs h hbefore] at h
      obtain ⟨rfl, rfl⟩ := List.cons.inj h
      exact hlate
  | segment c close text cs hc htext ih =>
    rw [quotedLiteralsFrom_none_segment hc htext, Text.literals_segment hc htext,
      List.append_cancel_left_eq, ih, not_iff_not]
    constructor
    · intro ⟨before, opening, close', rest, h, hbefore, hlate⟩
      exact ⟨c :: (text ++ close :: before), opening, close', rest, by simp [h],
        (openQuote_segment hc htext before).trans hbefore, hlate⟩
    · intro ⟨before, opening, close', rest, h, hbefore, hopen, hclose, hlate⟩
      rcases split_segment hc htext h hbefore with rfl | ⟨before', -, hcs, hbefore'⟩
      · obtain ⟨rfl, hrest⟩ := List.cons.inj h
        rw [hc] at hopen
        obtain rfl := Option.some_inj.mp hopen
        exact absurd (by simp [← hrest]) hclose
      · exact ⟨before', opening, close', rest, hcs, hbefore', hopen, hclose, hlate⟩

/-- The first scanner stops at the curly quote, the second goes on to the straight ones. -/
theorem scanners_disagree : ¬ ∀ goal,
    quotedLiterals goal = (Text.quotedLiterals goal).map Prod.snd := by
  intro h
  exact absurd (h "type \u201cmilk or \"eggs\"") (by decide +kernel)

end GpuiAgent
