import Mathlib.Data.List.Basic
import Mathlib.Data.List.Induction
import Mathlib.Data.List.TakeWhile
import Mathlib.Tactic.Common

namespace GpuiAgent.Framework.Quotes

variable {α : Type*} [DecidableEq α] (closing : α → Option α)

/-- What closes the quote that is open, after one more character; `closing` gives the closing
character of an opening one. -/
def step : Option α → α → Option α
  | none, c => closing c
  | some close, c => if c = close then none else some close

/-- The quote that a text leaves open. -/
def openQuote (cs : List α) : Option α := cs.foldl (step closing) none

/-- Induction over a text as it is read outside quotes: a plain character, a quote that is never
closed, or a closed segment comes next. -/
theorem induction {P : List α → Prop} (nil : P [])
    (plain : ∀ c cs, closing c = none → P cs → P (c :: cs))
    (unclosed : ∀ c close cs, closing c = some close → close ∉ cs → P cs → P (c :: cs))
    (segment : ∀ c close text cs, closing c = some close → close ∉ text → P cs →
      P (c :: (text ++ close :: cs))) (cs : List α) : P cs := by
  induction hn : cs.length using Nat.strongRecOn generalizing cs with
  | ind n ih =>
    subst hn
    cases cs with
    | nil => exact nil
    | cons c cs =>
      have hcs := ih cs.length (by simp) cs rfl
      cases hc : closing c with
      | none => exact plain c cs hc hcs
      | some close =>
        by_cases hmem : close ∈ cs
        · obtain ⟨text, rest, rfl, htext⟩ := List.eq_append_cons_of_mem hmem
          exact segment c close text rest hc htext (ih rest.length (by simp; omega) rest rfl)
        · exact unclosed c close cs hc hmem hcs

variable {closing}

theorem foldl_step_of_notMem {close : α} {cs : List α} (h : close ∉ cs) :
    cs.foldl (step closing) (some close) = some close := by
  induction cs with
  | nil => rfl
  | cons c cs ih =>
    rw [List.mem_cons, not_or] at h
    rw [List.foldl_cons, step, if_neg (Ne.symm h.1)]
    exact ih h.2

theorem openQuote_append {before : List α} (h : openQuote closing before = none) (cs : List α) :
    openQuote closing (before ++ cs) = openQuote closing cs := by
  rw [openQuote, List.foldl_append]
  exact congrArg (cs.foldl (step closing)) h

/-- A quote that is open has been opened in the text. -/
theorem exists_opening {close : α} {cs : List α} (h : openQuote closing cs = some close) :
    ∃ c ∈ cs, closing c = some close := by
  induction cs using List.reverseRecOn with
  | nil => cases h
  | append_singleton cs c ih =>
    rw [openQuote, List.foldl_concat, ← openQuote] at h
    cases hq : openQuote closing cs with
    | none =>
      rw [hq, step] at h
      exact ⟨c, by simp, h⟩
    | some close' =>
      rw [hq, step] at h
      split_ifs at h
      obtain ⟨c', hmem, hc'⟩ := ih (hq.trans h)
      exact ⟨c', List.mem_append_left _ hmem, hc'⟩

theorem openQuote_append_congr {a b : List α} (h : openQuote closing a = openQuote closing b)
    (cs : List α) : openQuote closing (a ++ cs) = openQuote closing (b ++ cs) := by
  rw [openQuote, openQuote, List.foldl_append, List.foldl_append]
  exact congrArg (cs.foldl (step closing)) h

theorem openQuote_append_open {close : α} {before cs : List α}
    (h : openQuote closing before = some close) (hcs : close ∉ cs) :
    openQuote closing (before ++ cs) = some close := by
  rw [openQuote, List.foldl_append, ← openQuote, h]
  exact foldl_step_of_notMem hcs

theorem openQuote_of_plain {cs : List α} (h : ∀ c ∈ cs, closing c = none) :
    openQuote closing cs = none := by
  induction cs with
  | nil => rfl
  | cons c cs ih =>
    rw [List.forall_mem_cons] at h
    rw [openQuote, List.foldl_cons, step, h.1]
    exact ih h.2

theorem openQuote_cons_plain {c : α} (h : closing c = none) (cs : List α) :
    openQuote closing (c :: cs) = openQuote closing cs := by
  rw [openQuote, List.foldl_cons, step, h]
  rfl

theorem openQuote_cons_unclosed {c close : α} {cs : List α} (hc : closing c = some close)
    (hcs : close ∉ cs) : openQuote closing (c :: cs) = some close := by
  rw [openQuote, List.foldl_cons, step, hc]
  exact foldl_step_of_notMem hcs

theorem openQuote_segment {c close : α} {text : List α} (hc : closing c = some close)
    (htext : close ∉ text) (cs : List α) :
    openQuote closing (c :: (text ++ close :: cs)) = openQuote closing cs := by
  rw [openQuote, List.foldl_cons, step, hc, List.foldl_append, foldl_step_of_notMem htext,
    List.foldl_cons, step, if_pos rfl]
  rfl

section Split

variable {a b : List α} {c close : α} {cs : List α}

/-- Where a text that starts with a plain character can be cut outside quotes. -/
theorem split_plain (hc : closing c = none) (h : c :: cs = a ++ b)
    (ha : openQuote closing a = none) :
    a = [] ∨ ∃ a', a = c :: a' ∧ cs = a' ++ b ∧ openQuote closing a' = none := by
  cases a with
  | nil => exact Or.inl rfl
  | cons c' a' =>
    obtain ⟨rfl, hcs⟩ := List.cons.inj h
    rw [openQuote_cons_plain hc] at ha
    exact Or.inr ⟨a', rfl, hcs, ha⟩

/-- A text that starts with a quote that is never closed can be cut outside quotes before it
only. -/
theorem split_unclosed (hc : closing c = some close) (hcs : close ∉ cs) (h : c :: cs = a ++ b)
    (ha : openQuote closing a = none) : a = [] := by
  cases a with
  | nil => rfl
  | cons c' a' =>
    obtain ⟨rfl, hcs'⟩ := List.cons.inj h
    have ha' : close ∉ a' := fun hmem => hcs (hcs' ▸ List.mem_append_left b hmem)
    rw [openQuote_cons_unclosed hc ha'] at ha
    cases ha

/-- A text that starts with a closed segment can be cut outside quotes before and after it. -/
theorem split_segment {text : List α} (hc : closing c = some close) (htext : close ∉ text)
    (h : c :: (text ++ close :: cs) = a ++ b) (ha : openQuote closing a = none) :
    a = [] ∨ ∃ a', a = c :: (text ++ close :: a') ∧ cs = a' ++ b ∧ openQuote closing a' = none := by
  cases a with
  | nil => exact Or.inl rfl
  | cons c' a' =>
    obtain ⟨rfl, hcs⟩ := List.cons.inj h
    right
    rcases List.append_eq_append_iff.mp hcs with ⟨mid, ha', hb⟩ | ⟨mid, htext', -⟩
    · cases mid with
      | nil =>
        rw [List.append_nil] at ha'
        rw [openQuote_cons_unclosed hc (ha' ▸ htext)] at ha
        cases ha
      | cons close' a'' =>
        obtain ⟨rfl, hcs'⟩ := List.cons.inj hb
        rw [ha', openQuote_segment hc htext] at ha
        exact ⟨a'', by rw [ha'], hcs', ha⟩
    · have hmem : close ∉ a' := fun hmem => htext (htext' ▸ List.mem_append_left mid hmem)
      rw [openQuote_cons_unclosed hc hmem] at ha
      cases ha

end Split

section Pairs

/-- The cut between `before` and `rest` lies outside every closed segment of the whole text. A quote
that is not closed later opens none. -/
inductive OutsidePairs (closing : α → Option α) : List α → List α → Prop where
  | start {rest : List α} : OutsidePairs closing [] rest
  | plain {c : α} {before rest : List α} (hc : closing c = none)
      (h : OutsidePairs closing before rest) : OutsidePairs closing (c :: before) rest
  | unclosed {c close : α} {before rest : List α} (hc : closing c = some close)
      (hclose : close ∉ before ++ rest) (h : OutsidePairs closing before rest) :
      OutsidePairs closing (c :: before) rest
  | pair {c close : α} {text before rest : List α} (hc : closing c = some close)
      (htext : close ∉ text) (h : OutsidePairs closing before rest) :
      OutsidePairs closing (c :: (text ++ close :: before)) rest

namespace OutsidePairs

variable {closing : α → Option α} {before rest : List α}

theorem of_openQuote (h : openQuote closing before = none) (rest : List α) :
    OutsidePairs closing before rest := by
  induction before using Quotes.induction closing with
  | nil => exact start
  | plain c cs hc ih =>
    rw [openQuote_cons_plain hc] at h
    exact plain hc (ih h)
  | unclosed c close cs hc hcs ih =>
    rw [openQuote_cons_unclosed hc hcs] at h
    cases h
  | segment c close text cs hc htext ih =>
    rw [openQuote_segment hc htext] at h
    exact pair hc htext (ih h)

/-- Where a quote is open at such a cut, nothing behind the cut closes it. -/
theorem openQuote_cases (h : OutsidePairs closing before rest) :
    openQuote closing before = none ∨
      ∃ close, openQuote closing before = some close ∧ close ∉ rest := by
  induction h with
  | start => exact .inl rfl
  | plain hc h ih => rwa [openQuote_cons_plain hc]
  | @unclosed c close before rest hc hclose h ih =>
    rw [List.mem_append, not_or] at hclose
    exact .inr ⟨close, openQuote_cons_unclosed hc hclose.1, hclose.2⟩
  | pair hc htext h ih => rwa [openQuote_segment hc htext]

omit [DecidableEq α] in
theorem append {more : List α} (h : OutsidePairs closing before (more ++ rest))
    (hmore : OutsidePairs closing more rest) : OutsidePairs closing (before ++ more) rest := by
  generalize htail : more ++ rest = tail at h
  induction h with
  | start => exact hmore
  | plain hc h ih => exact plain hc (ih htail)
  | unclosed hc hclose h ih =>
    rw [← htail, ← List.append_assoc] at hclose
    exact unclosed hc hclose (ih htail)
  | pair hc htext h ih =>
    rw [List.cons_append, List.append_assoc, List.cons_append]
    exact pair hc htext (ih htail)

/-- A front that leaves no quote open can be left out. -/
theorem behind {front more : List α} (h : OutsidePairs closing before rest)
    (hbefore : before = front ++ more) (hfront : openQuote closing front = none) :
    OutsidePairs closing more rest := by
  induction h generalizing front with
  | start =>
    obtain ⟨-, rfl⟩ := List.append_eq_nil_iff.mp hbefore.symm
    exact start
  | plain hc h ih =>
    rcases split_plain hc hbefore hfront with rfl | ⟨front', rfl, hcs, hfront'⟩
    · rw [← List.nil_append more, ← hbefore]
      exact plain hc h
    · exact ih hcs hfront'
  | @unclosed c close before rest hc hclose h ih =>
    have hclose' : close ∉ before := fun hmem => hclose (List.mem_append_left rest hmem)
    obtain rfl := split_unclosed hc hclose' hbefore hfront
    rw [← List.nil_append more, ← hbefore]
    exact unclosed hc hclose h
  | pair hc htext h ih =>
    rcases split_segment hc htext hbefore hfront with rfl | ⟨front', rfl, hcs, hfront'⟩
    · rw [← List.nil_append more, ← hbefore]
      exact pair hc htext h
    · exact ih hcs hfront'

end OutsidePairs

end Pairs

section FirstSegment

/-- Where a quote is closed, the text before the closing quote. -/
theorem eq_takeWhile_append {close : α} {cs : List α}
    (h : (cs.takeWhile (· ≠ close)).length ≠ cs.length) :
    ∃ rest, cs = cs.takeWhile (· ≠ close) ++ close :: rest := by
  have hsplit := @List.takeWhile_append_dropWhile _ (· ≠ close) cs
  cases hdrop : cs.dropWhile (· ≠ close) with
  | nil =>
    rw [hdrop, List.append_nil] at hsplit
    exact absurd (congrArg List.length hsplit) h
  | cons d rest =>
    have hd := List.head?_dropWhile_not (· ≠ close) cs
    rw [hdrop] at hd
    obtain rfl : d = close := by simpa using hd
    rw [hdrop] at hsplit
    exact ⟨rest, hsplit.symm⟩

theorem takeWhile_ne_append {close : α} {text : List α} (h : close ∉ text) (rest : List α) :
    (text ++ close :: rest).takeWhile (· ≠ close) = text := by
  have htext : ∀ a ∈ text, decide (a ≠ close) = true := fun a ha =>
    decide_eq_true fun he => h (he ▸ ha)
  rw [List.takeWhile_append_of_pos htext, List.takeWhile_cons_of_neg (by simp), List.append_nil]

/-- The first quote opens a segment that the same quote closes. -/
def FirstSegment (isQuote : α → Bool) (cs text : List α) : Prop :=
  ∃ before quote rest, cs = before ++ quote :: (text ++ quote :: rest) ∧
    (∀ c ∈ before, isQuote c = false) ∧ isQuote quote = true ∧ quote ∉ text

/-- The text between the first quote and its next occurrence. -/
def firstSegment (isQuote : α → Bool) (cs : List α) : Option (List α) :=
  match cs.dropWhile fun c => !isQuote c with
  | [] => none
  | quote :: rest =>
    let content := rest.takeWhile (· ≠ quote)
    if content.length = rest.length then none else some content

theorem firstSegment_eq_some_iff {isQuote : α → Bool} {cs text : List α} :
    firstSegment isQuote cs = some text ↔ FirstSegment isQuote cs text := by
  constructor
  · intro h
    have hsplit := @List.takeWhile_append_dropWhile _ (fun c => !isQuote c) cs
    unfold firstSegment at h
    cases hdrop : cs.dropWhile fun c => !isQuote c with
    | nil =>
      rw [hdrop] at h
      cases h
    | cons quote rest =>
      have hquote := List.head?_dropWhile_not (fun c => !isQuote c) cs
      rw [hdrop] at h hquote hsplit
      dsimp only at h
      split_ifs at h with hend
      obtain rfl := Option.some_inj.mp h
      obtain ⟨rest', hrest⟩ := eq_takeWhile_append hend
      refine ⟨cs.takeWhile fun c => !isQuote c, quote, rest', ?_, ?_, by simpa using hquote, ?_⟩
      · rw [← hrest, hsplit]
      · intro c hc
        simpa using List.mem_takeWhile_imp hc
      · intro hmem
        simpa using List.mem_takeWhile_imp hmem
  · rintro ⟨before, quote, rest, rfl, hbefore, hquote, htext⟩
    have hpos : ∀ c ∈ before, (!isQuote c) = true := fun c hc => by rw [hbefore c hc]; rfl
    unfold firstSegment
    rw [List.dropWhile_append_of_pos hpos, List.dropWhile_cons_of_neg (by simp [hquote])]
    dsimp only
    rw [takeWhile_ne_append htext, if_neg (by simp)]

end FirstSegment

/-- Outside quotes, a segment that is not empty and that is closed. -/
def HasSegment (closing : α → Option α) (cs : List α) : Prop :=
  ∃ before opening text close rest, cs = before ++ opening :: (text ++ close :: rest) ∧
    openQuote closing before = none ∧ closing opening = some close ∧ close ∉ text ∧ text ≠ []

theorem not_hasSegment_nil : ¬ HasSegment closing ([] : List α) := by
  intro ⟨before, opening, text, close, rest, h, _⟩
  simp at h

theorem hasSegment_plain {c : α} (hc : closing c = none) (cs : List α) :
    HasSegment closing (c :: cs) ↔ HasSegment closing cs := by
  constructor
  · intro ⟨before, opening, text, close, rest, h, hbefore, hopen, htext, hne⟩
    rcases split_plain hc h hbefore with rfl | ⟨before', rfl, hcs, hbefore'⟩
    · obtain ⟨rfl, -⟩ := List.cons.inj h
      rw [hc] at hopen
      cases hopen
    · exact ⟨before', opening, text, close, rest, hcs, hbefore', hopen, htext, hne⟩
  · intro ⟨before, opening, text, close, rest, h, hbefore, hopen, htext, hne⟩
    exact ⟨c :: before, opening, text, close, rest, by rw [h]; rfl,
      (openQuote_cons_plain hc before).trans hbefore, hopen, htext, hne⟩

theorem hasSegment_empty {c close : α} (hc : closing c = some close) (cs : List α) :
    HasSegment closing (c :: close :: cs) ↔ HasSegment closing cs := by
  constructor
  · intro ⟨before, opening, text, close', rest, h, hbefore, hopen, htext, hne⟩
    rcases split_segment hc (List.not_mem_nil : close ∉ ([] : List α)) h hbefore with
      rfl | ⟨before', rfl, hcs, hbefore'⟩
    · obtain ⟨rfl, hcs⟩ := List.cons.inj h
      obtain rfl : close = close' := Option.some_inj.mp (hc.symm.trans hopen)
      cases text with
      | nil => exact absurd rfl hne
      | cons first text =>
        obtain ⟨rfl, -⟩ := List.cons.inj hcs
        exact absurd List.mem_cons_self htext
    · exact ⟨before', opening, text, close', rest, hcs, hbefore', hopen, htext, hne⟩
  · intro ⟨before, opening, text, close', rest, h, hbefore, hopen, htext, hne⟩
    exact ⟨c :: close :: before, opening, text, close', rest, by rw [h]; rfl,
      (openQuote_segment hc (List.not_mem_nil : close ∉ ([] : List α)) before).trans hbefore,
      hopen, htext, hne⟩

section Echo

variable {q o c : α}

omit [DecidableEq α] in
/-- A text that occurs once more a step behind itself repeats that step. -/
theorem echo_of_shift {u post b rest : List α} (hb : q ∉ b) (ho : q ≠ o)
    (h : u ++ q :: post = b ++ o :: q :: (u ++ c :: rest)) :
    (∃ n, q :: u = (List.replicate (n + 1) (q :: (b ++ [o]))).flatten) ∧
      post = b ++ o :: c :: rest := by
  have hstep : q ∉ b ++ [o] := by
    rw [List.mem_append, List.mem_singleton, not_or]
    exact ⟨hb, ho⟩
  induction hn : u.length using Nat.strongRecOn generalizing u with
  | ind n ih =>
    have hcut : u ++ q :: post = (b ++ [o]) ++ q :: (u ++ c :: rest) := by simp [h]
    rcases List.append_eq_append_iff.mp hcut with ⟨t, hbo, hpost⟩ | ⟨t, hu, hrest⟩
    · -- the text ends within the first step, so at its end
      cases t with
      | nil =>
        rw [List.append_nil] at hbo
        obtain ⟨-, hpost⟩ := List.cons.inj hpost
        exact ⟨⟨0, by simp [hbo]⟩, by simp [hpost, ← hbo]⟩
      | cons a t =>
        obtain ⟨rfl, -⟩ := List.cons.inj hpost
        exact absurd (hbo ▸ by simp) hstep
    · cases t with
      | nil =>
        rw [List.append_nil] at hu
        obtain ⟨-, hpost⟩ := List.cons.inj hrest
        exact ⟨⟨0, by simp [hu]⟩, by simp [← hpost, hu]⟩
      | cons a t =>
        obtain ⟨rfl, htail⟩ := List.cons.inj hrest
        have hshift : t ++ q :: post = b ++ o :: q :: (t ++ c :: rest) := by
          calc t ++ q :: post = u ++ c :: rest := htail.symm
            _ = b ++ o :: q :: (t ++ c :: rest) := by simp [hu]
        obtain ⟨⟨k, hk⟩, hpost⟩ := ih t.length (by simp [← hn, hu]; omega) hshift rfl
        refine ⟨⟨k + 1, ?_⟩, hpost⟩
        rw [List.replicate_succ, List.flatten_cons, ← hk, hu]
        simp

end Echo

end GpuiAgent.Framework.Quotes
