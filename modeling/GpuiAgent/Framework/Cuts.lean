import Mathlib.Data.List.Basic
import Mathlib.Data.Nat.Find
import Mathlib.Tactic.Common

namespace GpuiAgent.Framework

section Cuts

variable {α : Type*}

/-- A cut that is no shorter than a front lies behind it. -/
theorem append_eq_append_of_le {front cs b r : List α} (h : front ++ cs = b ++ r)
    (hle : front.length ≤ b.length) : ∃ b', b = front ++ b' ∧ cs = b' ++ r := by
  rcases List.append_eq_append_iff.mp h with ⟨b', hb, hcs⟩ | ⟨b', hfront, hr⟩
  · exact ⟨b', hb, hcs⟩
  · cases b' with
    | nil => exact ⟨[], by rw [hfront, List.append_nil, List.append_nil], hr.symm⟩
    | cons a b' =>
      rw [hfront, List.length_append, List.length_cons] at hle
      omega

/-- A cut of a text lies in front of a delimiter, in it or behind it. -/
theorem cut_cases {before conn rest b r : List α} (h : before ++ (conn ++ rest) = b ++ r) :
    b.length < before.length ∨
      (∃ b' r', conn = b' ++ r' ∧ b = before ++ b' ∧ r = r' ++ rest) ∨
      ∃ b', b = before ++ (conn ++ b') ∧ rest = b' ++ r := by
  rcases Nat.lt_or_ge b.length before.length with hshort | hlong
  · exact .inl hshort
  · obtain ⟨b', rfl, hconn⟩ := append_eq_append_of_le h hlong
    rcases Nat.lt_or_ge b'.length conn.length with hin | hbehind
    · obtain ⟨r', hb', hr⟩ := append_eq_append_of_le hconn.symm (Nat.le_of_lt hin)
      exact .inr (.inl ⟨b', r', hb', rfl, hr⟩)
    · obtain ⟨b'', rfl, hrest⟩ := append_eq_append_of_le hconn hbehind
      exact .inr (.inr ⟨b'', rfl, hrest⟩)

/-- The boundaries of a list of pieces are the first one and those of the rest. -/
theorem forall_boundaries_cons {P : List α → List α → Prop} {p : List α} {ps : List (List α)} :
    (∀ front back, front ≠ [] → p :: ps = front ++ back → P front.flatten back.flatten) ↔
      P p ps.flatten ∧
        ∀ front back, front ≠ [] → ps = front ++ back → P (p ++ front.flatten) back.flatten := by
  constructor
  · intro hall
    refine ⟨?_, fun front back _ hps => ?_⟩
    · have hfirst := hall [p] ps (List.cons_ne_nil _ _) rfl
      rwa [List.flatten_singleton] at hfirst
    · have hlater := hall (p :: front) back (List.cons_ne_nil _ _) (by rw [hps]; rfl)
      rwa [List.flatten_cons] at hlater
  · intro ⟨hfirst, hlater⟩ front back hne hps
    obtain ⟨p', front, rfl⟩ := List.exists_cons_of_ne_nil hne
    obtain ⟨rfl, hback⟩ := List.cons.inj hps
    rw [List.flatten_cons]
    cases front with
    | nil =>
      obtain rfl : ps = back := hback
      rwa [List.flatten_nil, List.append_nil]
    | cons p' front => exact hlater (p' :: front) back (List.cons_ne_nil _ _) hback

/-- The pieces of a text that is cut at delimiters, the leftmost first and none overlapping the one
before it. `delim` gives the length of a leading delimiter; a delimiter counts where the text in
front of it is `outside`, seen from what follows. -/
inductive CutPieces (delim : List α → Option Nat) (outside : List α → List α → Prop) :
    List α → List (List α) → Prop where
  | last {cs : List α}
      (whole : ∀ before rest, cs = before ++ rest → outside before rest → delim rest = none) :
      CutPieces delim outside cs [cs]
  | cut {before conn rest : List α} {ps : List (List α)}
      (here : outside before (conn ++ rest)) (length : delim (conn ++ rest) = some conn.length)
      (first : ∀ b r, before ++ (conn ++ rest) = b ++ r → b.length < before.length →
        outside b r → delim r = none)
      (behind : CutPieces delim outside rest ps) :
      CutPieces delim outside (before ++ (conn ++ rest)) (before :: ps)

namespace CutPieces

variable {delim : List α → Option Nat} {outside : List α → List α → Prop} {cs : List α}
  {ps qs : List (List α)}

theorem unique (h : CutPieces delim outside cs ps) (h' : CutPieces delim outside cs qs) :
    ps = qs := by
  induction h generalizing qs with
  | last whole =>
    cases h' with
    | last => rfl
    | cut here length first rest =>
      rw [whole _ _ rfl here] at length
      cases length
  | @cut before conn rest ps here length first hrest ih =>
    generalize hcs : before ++ (conn ++ rest) = cs at h'
    cases h' with
    | last whole =>
      rw [whole _ _ hcs.symm here] at length
      cases length
    | @cut before' conn' rest' ps' here' length' first' hrest' =>
      -- neither cut lies in front of the other
      have hlen : before.length = before'.length := by
        rcases Nat.lt_trichotomy before.length before'.length with hlt | heq | hlt
        · rw [first' before (conn ++ rest) hcs.symm hlt here] at length
          cases length
        · exact heq
        · rw [first before' (conn' ++ rest') hcs hlt here'] at length'
          cases length'
      obtain ⟨rfl, htail⟩ := List.append_inj hcs hlen
      rw [htail, length', Option.some_inj] at length
      obtain ⟨rfl, rfl⟩ := List.append_inj htail length.symm
      rw [ih hrest']

/-- A front without a cut goes to the first piece. -/
theorem prepend {front : List α} {p : List α} (h : CutPieces delim outside cs (p :: ps))
    (uncut : ∀ b r, front ++ cs = b ++ r → b.length < front.length → outside b r → delim r = none)
    (shift : ∀ b r, cs = b ++ r → (outside (front ++ b) r ↔ outside b r)) :
    CutPieces delim outside (front ++ cs) ((front ++ p) :: ps) := by
  generalize hpieces : p :: ps = pieces at h
  cases h with
  | last whole =>
    cases hpieces
    refine last fun b r hbr hout => ?_
    rcases Nat.lt_or_ge b.length front.length with hlt | hge
    · exact uncut b r hbr hlt hout
    · obtain ⟨b', rfl, hcs⟩ := append_eq_append_of_le hbr hge
      exact whole b' r hcs ((shift b' r hcs).mp hout)
  | cut here length first behind =>
    cases hpieces
    rw [← List.append_assoc]
    refine cut ((shift p _ rfl).mpr here) length (fun b r hbr hlt hout => ?_) behind
    rw [List.append_assoc] at hbr
    rcases Nat.lt_or_ge b.length front.length with hlt' | hge
    · exact uncut b r hbr hlt' hout
    · obtain ⟨b', rfl, hcs⟩ := append_eq_append_of_le hbr hge
      rw [List.length_append, List.length_append] at hlt
      exact first b' r hcs (by omega) ((shift b' r hcs).mp hout)

/-- Every text has pieces, if a delimiter has a length and lies in the text. -/
theorem exists_pieces
    (fits : ∀ cs len, delim cs = some len → ∃ conn rest, cs = conn ++ rest ∧ conn.length = len ∧
      0 < len) (cs : List α) : ∃ ps, CutPieces delim outside cs ps := by
  induction hn : cs.length using Nat.strongRecOn generalizing cs with
  | ind n ih =>
    subst hn
    by_cases hwhole : ∀ before rest, cs = before ++ rest → outside before rest → delim rest = none
    · exact ⟨[cs], last hwhole⟩
    · -- the cut with the shortest text in front
      have hsome : ∃ len, ∃ before rest, cs = before ++ rest ∧ outside before rest ∧
          delim rest ≠ none ∧ before.length = len := by
        push Not at hwhole
        obtain ⟨before, rest, hcs, hout, hdelim⟩ := hwhole
        exact ⟨_, before, rest, hcs, hout, hdelim, rfl⟩
      classical
      obtain ⟨before, tail, rfl, hout, hdelim, hlen⟩ := Nat.find_spec hsome
      obtain ⟨len, hlength⟩ := Option.ne_none_iff_exists'.mp hdelim
      obtain ⟨conn, rest, rfl, rfl, hpos⟩ := fits tail len hlength
      obtain ⟨ps, hps⟩ := ih rest.length (by simp; omega) rest rfl
      refine ⟨before :: ps, cut hout hlength (fun b r hbr hlt hb => ?_) hps⟩
      by_contra hne
      exact Nat.find_min hsome (hlen ▸ hlt) ⟨b, r, hbr, hb, hne, rfl⟩

/-- What no delimiter is made of is in the pieces when it is in the text. -/
theorem mem_flatten_iff {p : α → Prop} (h : CutPieces delim outside cs ps)
    (hdelim : ∀ conn rest, delim (conn ++ rest) = some conn.length → ∀ a ∈ conn, p a) {a : α}
    (ha : ¬ p a) : a ∈ ps.flatten ↔ a ∈ cs := by
  induction h with
  | last => simp
  | @cut before conn rest ps here length first behind ih =>
    have hconn : a ∉ conn := fun hmem => ha (hdelim conn rest length a hmem)
    rw [List.flatten_cons, List.mem_append, ih, List.mem_append, List.mem_append,
      or_iff_right hconn]

/-- The pieces are the text without its delimiters. -/
theorem countP_flatten_le (h : CutPieces delim outside cs ps) (p : α → Bool) :
    ps.flatten.countP p ≤ cs.countP p := by
  induction h with
  | last => simp
  | cut here length first behind ih =>
    rw [List.flatten_cons, List.countP_append, List.countP_append, List.countP_append]
    omega

/-- Where it does not matter what follows, a piece has no cut of its own. -/
theorem piece_whole {out : List α → Prop} (h : CutPieces delim (fun before _ => out before) cs ps)
    (nil : delim [] = none) (grows : ∀ r x, delim (r ++ x) = none → delim r = none)
    {piece : List α} (hpiece : piece ∈ ps) :
    ∀ before rest, piece = before ++ rest → out before → delim rest = none := by
  induction h with
  | last whole =>
    rw [List.mem_singleton.mp hpiece]
    exact whole
  | @cut before conn rest ps here length first behind ih =>
    rcases List.mem_cons.mp hpiece with rfl | hpiece
    · intro b r hbr hout
      cases r with
      | nil => exact nil
      | cons a r =>
        refine grows (a :: r) (conn ++ rest) (first b _ ?_ ?_ hout)
        · rw [hbr, List.append_assoc]
        · rw [hbr, List.length_append, List.length_cons]
          omega
    · exact ih hpiece

end CutPieces

end Cuts

end GpuiAgent.Framework
