import GpuiAgent.Policy.Clause
import GpuiAgent.Policy.Literals

namespace GpuiAgent

open Framework Framework.Quotes

/-- The quotes that the clause splitter respects. -/
def clauseQuote (c : Char) : Option Char := if c = '"' ∨ c = '\x27' then some c else none

section Connectives

/-- A connective's characters are letters and blanks. -/
theorem matchConnective_spec {cs : List Char} {len : Nat} (h : matchConnective cs = some len) :
    0 < len ∧ ∃ conn rest, cs = conn ++ rest ∧ conn.length = len ∧
      ∀ c ∈ conn, Unquoted c ∧ clauseQuote c = none := by
  have hpat : ∃ pat : List Char, (pat = " and then ".toList ∨ pat = " then ".toList) ∧
      pat.length = len ∧ pat <+: cs.map Char.toLower := by
    unfold matchConnective at h
    simp only at h
    split_ifs at h with h₁ h₂
    · exact ⟨_, Or.inl rfl, Option.some_inj.mp h, List.isPrefixOf_iff_prefix.mp h₁⟩
    · exact ⟨_, Or.inr rfl, Option.some_inj.mp h, List.isPrefixOf_iff_prefix.mp h₂⟩
  obtain ⟨pat, hpat, rfl, more, hmore⟩ := hpat
  have hall : (pat.all fun c => decide (c ∈ " andthe".toList)) = true := by
    rcases hpat with rfl | rfl <;> decide
  have hchars : ∀ c ∈ pat, c ∈ " andthe".toList := fun c hc =>
    of_decide_eq_true (List.all_eq_true.mp hall c hc)
  have hpos : 0 < pat.length := by
    rcases hpat with rfl | rfl <;> decide
  obtain ⟨conn, rest, rfl, hconn, -⟩ := List.map_eq_append_iff.mp hmore.symm
  refine ⟨hpos, conn, rest, rfl, by rw [← hconn, List.length_map], ?_⟩
  intro c hc
  have hlower := hchars c.toLower (hconn ▸ List.mem_map_of_mem hc)
  have hne : ∀ d : Char, d.toLower ∉ " andthe".toList → c ≠ d := fun d hd he => hd (he ▸ hlower)
  refine ⟨⟨hne _ (by decide), hne _ (by decide), hne _ (by decide)⟩, if_neg ?_⟩
  rw [not_or]
  exact ⟨hne _ (by decide), hne _ (by decide)⟩

theorem clauseQuote_eq_some {c q : Char} (h : clauseQuote c = some q) :
    (c = '"' ∨ c = '\x27') ∧ q = c := by
  unfold clauseQuote at h
  split_ifs at h with hc
  exact ⟨hc, (Option.some_inj.mp h).symm⟩

theorem matchConnective_quote {c q : Char} (hc : clauseQuote c = some q) (cs : List Char) :
    matchConnective (c :: cs) = none := by
  have hq := (clauseQuote_eq_some hc).1
  rcases hq with rfl | rfl <;> rfl

theorem sequentialFrom_unclosed {q : Char} {cs : List Char} (h : q ∉ cs) (clause : List Char) :
    sequentialFrom 0 (some q) clause cs = [clause.reverse ++ cs] := by
  induction cs generalizing clause with
  | nil => rw [sequentialFrom, List.append_nil]
  | cons c cs ih =>
    rw [List.mem_cons, not_or] at h
    rw [sequentialFrom, if_neg (lt_irrefl 0)]
    simp only [if_neg (Ne.symm h.1), ih h.2, List.reverse_cons, List.append_assoc]
    rfl

theorem sequentialFrom_quoted {q : Char} {text : List Char} (h : q ∉ text)
    (clause cs : List Char) :
    sequentialFrom 0 (some q) clause (text ++ q :: cs) =
      sequentialFrom 0 none (q :: (text.reverse ++ clause)) cs := by
  induction text generalizing clause with
  | nil =>
    rw [List.nil_append, sequentialFrom, if_neg (lt_irrefl 0)]
    simp
  | cons c text ih =>
    rw [List.mem_cons, not_or] at h
    rw [List.cons_append, sequentialFrom, if_neg (lt_irrefl 0)]
    simp only [if_neg (Ne.symm h.1), ih h.2, List.reverse_cons, List.append_assoc]
    rfl

theorem sequentialFrom_plain {c : Char} {cs : List Char} (hc : clauseQuote c = none)
    (hm : matchConnective (c :: cs) = none) (clause : List Char) :
    sequentialFrom 0 none clause (c :: cs) = sequentialFrom 0 none (c :: clause) cs := by
  have hq : ¬ (c = '"' ∨ c = '\x27') := by
    intro h
    rw [clauseQuote, if_pos h] at hc
    cases hc
  rw [sequentialFrom, if_neg (lt_irrefl 0)]
  simp only [if_neg hq, hm]

theorem sequentialFrom_opening {c q : Char} (hc : clauseQuote c = some q) (clause cs : List Char) :
    sequentialFrom 0 none clause (c :: cs) = sequentialFrom 0 (some q) (c :: clause) cs := by
  obtain ⟨hq, rfl⟩ := clauseQuote_eq_some hc
  rw [sequentialFrom, if_neg (lt_irrefl 0)]
  simp only [if_pos hq]

theorem sequentialFrom_connective {conn rest : List Char}
    (hm : matchConnective (conn ++ rest) = some conn.length) (hpos : 0 < conn.length)
    (hconn : ∀ c ∈ conn, clauseQuote c = none) (clause : List Char) :
    sequentialFrom 0 none clause (conn ++ rest) =
      clause.reverse :: sequentialFrom 0 none [] rest := by
  cases conn with
  | nil => cases hpos
  | cons c conn =>
    have hq : ¬ (c = '"' ∨ c = '\x27') := by
      intro h
      have hnone := hconn c List.mem_cons_self
      rw [clauseQuote, if_pos h] at hnone
      cases hnone
    rw [List.cons_append, sequentialFrom, if_neg (lt_irrefl 0)]
    rw [List.cons_append] at hm
    simp only [if_neg hq, hm, List.length_cons, Nat.add_sub_cancel]
    rw [sequentialFrom_skip, List.drop_left]

/-- Induction over a goal as the clause splitter reads it outside quotes: a connective, a plain
character, a quote that is never closed, or a closed segment comes next. -/
theorem sequential_induction {P : List Char → Prop} (nil : P [])
    (connective : ∀ conn rest, matchConnective (conn ++ rest) = some conn.length →
      0 < conn.length → (∀ c ∈ conn, Unquoted c ∧ clauseQuote c = none) → P rest →
      P (conn ++ rest))
    (plain : ∀ c cs, clauseQuote c = none → matchConnective (c :: cs) = none → P cs → P (c :: cs))
    (unclosed : ∀ c q cs, clauseQuote c = some q → q ∉ cs → P (c :: cs))
    (segment : ∀ c q text cs, clauseQuote c = some q → q ∉ text → P cs →
      P (c :: (text ++ q :: cs))) (cs : List Char) : P cs := by
  induction hn : cs.length using Nat.strongRecOn generalizing cs with
  | ind n ih =>
    subst hn
    cases cs with
    | nil => exact nil
    | cons c cs =>
      cases hc : clauseQuote c with
      | some q =>
        by_cases hmem : q ∈ cs
        · obtain ⟨text, rest, rfl, htext⟩ := List.eq_append_cons_of_mem hmem
          exact segment c q text rest hc htext (ih rest.length (by simp; omega) rest rfl)
        · exact unclosed c q cs hc hmem
      | none =>
        cases hm : matchConnective (c :: cs) with
        | none => exact plain c cs hc hm (ih cs.length (by simp) cs rfl)
        | some len =>
          obtain ⟨hpos, conn, rest, hcs, rfl, hconn⟩ := matchConnective_spec hm
          have hlen : (c :: cs).length = conn.length + rest.length := by
            rw [hcs, List.length_append]
          rw [hcs] at hm ⊢
          exact connective conn rest hm hpos hconn (ih rest.length (by omega) rest rfl)

end Connectives

end GpuiAgent
