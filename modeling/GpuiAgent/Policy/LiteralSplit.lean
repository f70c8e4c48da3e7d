import GpuiAgent.Policy.ClauseBoundary
import GpuiAgent.Policy.WaitScan

namespace GpuiAgent

open Framework Framework.Quotes

/-- The end of `before` stands inside a literal of the text that goes on with `rest`: a quote is
open there, and it is closed behind. -/
def InLiteral (before rest : List Char) : Prop :=
  ∃ close ∈ rest, openQuote Text.closingQuote before = some close

section InLiteral

variable {a b r w : List Char}

theorem inLiteral_congr (h : openQuote Text.closingQuote a = openQuote Text.closingQuote b) :
    InLiteral a r ↔ InLiteral b r := by
  rw [InLiteral, InLiteral, h]

theorem not_inLiteral_nil_left : ¬ InLiteral [] r := by
  intro ⟨close, _, h⟩
  cases h

theorem not_inLiteral_nil_right : ¬ InLiteral a [] := by
  intro ⟨close, hmem, _⟩
  cases hmem

theorem inLiteral_append_unquoted (h : ∀ c ∈ w, Unquoted c) :
    InLiteral a (w ++ r) ↔ InLiteral a r := by
  refine exists_congr fun close => and_congr_left fun hopen => ?_
  rw [List.mem_append]
  exact or_iff_right fun hmem => not_unquoted_of_open hopen (h close hmem)

theorem inLiteral_unquoted_append (h : ∀ c ∈ w, Unquoted c) (b : List Char) :
    InLiteral (a ++ w ++ b) r ↔ InLiteral (a ++ b) r :=
  inLiteral_congr (openQuote_append_congr (openQuote_append_unquoted h a) b)

/-- Outside literals a quote that is open is never closed. -/
theorem notMem_of_not_inLiteral (h : ¬ InLiteral a r) {close : Char}
    (hopen : openQuote Text.closingQuote a = some close) : close ∉ r :=
  fun hmem => h ⟨close, hmem, hopen⟩

end InLiteral

section Connectives

variable {goal : List Char} {pieces : List (List Char)}

/-- No boundary between the pieces of a text stands inside a literal. The connectives that are cut
out have no quotes. -/
def BoundariesOutside (pieces : List (List Char)) : Prop :=
  ∀ front back, pieces = front ++ back → ¬ InLiteral front.flatten back.flatten

/-- No connective outside straight quotes and apostrophes stands inside a literal. -/
def ConnectivesOutside (goal : List Char) : Prop :=
  ∀ before rest, goal = before ++ rest → matchConnective rest ≠ none →
    openQuote clauseQuote before = none → ¬ InLiteral before rest

/-- Where a quote that is never closed stands in front of a piece, the piece has no literal. -/
def BareBehindStray (goal : List Char) : Prop :=
  ∀ pieces, ScannedPieces goal pieces → ∀ front piece back, pieces = front ++ piece :: back →
    openQuote Text.closingQuote front.flatten ≠ none → quotedLiteralsFrom none piece = []

theorem unquoted_of_connective (conn rest : List Char)
    (h : matchConnective (conn ++ rest) = some conn.length) : ∀ c ∈ conn, Unquoted c := by
  obtain ⟨-, conn', rest', heq, hlen, hchars⟩ := matchConnective_spec h
  obtain ⟨rfl, -⟩ := List.append_inj heq hlen.symm
  exact fun c hc => (hchars c hc).1

theorem ScannedPieces.inLiteral_iff (h : ScannedPieces goal pieces) (before : List Char) :
    InLiteral before pieces.flatten ↔ InLiteral before goal :=
  exists_congr fun _ => and_congr_left fun hopen =>
    h.mem_flatten_iff unquoted_of_connective (not_unquoted_of_open hopen)

/-- The boundaries are those of the connectives that the splitter sees; `seen` stands in front of
the text. -/
theorem ScannedPieces.boundaries_iff (h : ScannedPieces goal pieces) : ∀ seen,
    (∀ front back, front ≠ [] → pieces = front ++ back →
      ¬ InLiteral (seen ++ front.flatten) back.flatten) ↔
    ∀ before rest, goal = before ++ rest → matchConnective rest ≠ none →
      openQuote clauseQuote before = none → ¬ InLiteral (seen ++ before) rest := by
  induction h with
  | last whole =>
    refine fun seen => iff_of_true (fun front back hne hps => ?_) fun before rest hcs hm hout => ?_
    · have hback : back = [] := by
        obtain ⟨p, front, rfl⟩ := List.exists_cons_of_ne_nil hne
        obtain ⟨-, htail⟩ := List.cons.inj hps
        exact (List.append_eq_nil_iff.mp htail.symm).2
      rw [hback]
      exact not_inLiteral_nil_right
    · exact absurd (whole before rest hcs hout) hm
  | @cut before conn rest ps here length first behind ih =>
    intro seen
    have hplain := unquoted_of_connective conn rest length
    have hconn := openQuote_connective length (List.append_nil conn).symm
    have hsplit := @forall_boundaries_cons _
      (fun front back => ¬ InLiteral (seen ++ front) back) before ps
    simp only [← List.append_assoc seen before] at hsplit
    rw [hsplit, ScannedPieces.inLiteral_iff behind, ih (seen ++ before)]
    constructor
    · intro ⟨hfirst, hlater⟩ b r hbr hm hout
      rcases cut_cases hbr with hshort | ⟨b', r', hb', rfl, rfl⟩ | ⟨b', rfl, rfl⟩
      · exact absurd (first b r hbr hshort hout) hm
      · have hfront : ∀ c ∈ b', Unquoted c := fun c hc =>
          hplain c (hb' ▸ List.mem_append_left r' hc)
        have hback : ∀ c ∈ r', Unquoted c := fun c hc =>
          hplain c (hb' ▸ List.mem_append_right b' hc)
        rwa [← List.append_assoc, inLiteral_append_unquoted hback,
          inLiteral_congr (openQuote_append_unquoted hfront _)]
      · rw [openQuote_append here, openQuote_append hconn] at hout
        rw [← List.append_assoc, ← List.append_assoc, inLiteral_unquoted_append hplain]
        exact hlater b' r rfl hm hout
    · intro hall
      refine ⟨?_, fun b r hbr hm hout => ?_⟩
      · have hfirst := hall before (conn ++ rest) rfl (by rw [length]; exact Option.some_ne_none _)
          here
        rwa [inLiteral_append_unquoted hplain] at hfirst
      · have hlater := hall (before ++ (conn ++ b)) r (by rw [hbr]; simp) hm
          (by rw [openQuote_append here, openQuote_append hconn, hout])
        rwa [← List.append_assoc, ← List.append_assoc, inLiteral_unquoted_append hplain] at hlater

theorem boundariesOutside_iff (h : ScannedPieces goal pieces) :
    BoundariesOutside pieces ↔ ConnectivesOutside goal := by
  have hiff := ScannedPieces.boundaries_iff h []
  simp only [List.nil_append] at hiff
  refine Iff.trans ?_ hiff
  constructor
  · exact fun hall front back _ hps => hall front back hps
  · intro hall front back hps
    cases front with
    | nil => exact not_inLiteral_nil_left
    | cons p front => exact hall (p :: front) back (List.cons_ne_nil _ _) hps

/-- Pieces whose boundaries stand outside literals have the literals of the text, and besides those
of the pieces behind a quote that is never closed. -/
theorem ScannedPieces.literals_iff (h : ScannedPieces goal pieces)
    (houtside : BoundariesOutside pieces) :
    pieces.flatMap (quotedLiteralsFrom none) = quotedLiteralsFrom none goal ↔
      ∀ front piece back, pieces = front ++ piece :: back →
        openQuote Text.closingQuote front.flatten ≠ none → quotedLiteralsFrom none piece = [] := by
  induction h with
  | last =>
    refine iff_of_true (by simp) fun front piece back hps hopen => ?_
    have hfront : front = [] := by
      cases front with
      | nil => rfl
      | cons p front => simp at hps
    rw [hfront] at hopen
    exact absurd rfl hopen
  | @cut before conn rest ps here length first behind ih =>
    have hplain := unquoted_of_connective conn rest length
    rw [List.flatMap_cons]
    cases hopen : openQuote Text.closingQuote before with
    | none =>
      have hflat : ∀ front : List (List Char),
          openQuote Text.closingQuote (before :: front).flatten =
            openQuote Text.closingQuote front.flatten := fun front => by
        rw [List.flatten_cons, openQuote_append hopen]
      have hrest : BoundariesOutside ps := by
        intro front back hps
        have hboundary := houtside (before :: front) back (by rw [hps]; rfl)
        rwa [inLiteral_congr (hflat front)] at hboundary
      rw [quotedLiteralsFrom_append hopen, quotedLiteralsFrom_unquoted_append hplain,
        List.append_cancel_left_eq, ih hrest]
      constructor
      · intro hbare front piece back hps hstray
        cases front with
        | nil => exact absurd rfl hstray
        | cons p front =>
          obtain ⟨rfl, hback⟩ := List.cons.inj hps
          rw [hflat] at hstray
          exact hbare front piece back hback hstray
      · intro hbare front piece back hps hstray
        exact hbare (before :: front) piece back (by rw [hps]; rfl) (by rwa [hflat])
    | some close =>
      -- the quote is never closed, and nothing more is read of the text
      have hboundary := houtside [before] ps rfl
      rw [List.flatten_singleton] at hboundary
      have hps := notMem_of_not_inLiteral hboundary hopen
      have htext : close ∉ conn ++ rest := by
        rw [List.mem_append, not_or]
        refine ⟨fun hmem => not_unquoted_of_open hopen (hplain close hmem), ?_⟩
        rwa [← behind.mem_flatten_iff unquoted_of_connective (not_unquoted_of_open hopen)]
      rw [quotedLiteralsFrom_append_open hopen htext, List.append_right_eq_self,
        List.flatMap_eq_nil_iff]
      constructor
      · intro hbare front piece back hpieces hstray
        cases front with
        | nil => exact absurd rfl hstray
        | cons p front =>
          obtain ⟨-, rfl⟩ := List.cons.inj hpieces
          exact hbare piece (by simp)
      · intro hbare piece hpiece
        obtain ⟨front, back, rfl⟩ := List.append_of_mem hpiece
        refine hbare (before :: front) piece back rfl ?_
        have hfront : close ∉ front.flatten := fun hmem => hps (by
          rw [List.flatten_append]
          exact List.mem_append_left _ hmem)
        rw [List.flatten_cons, openQuote_append_open hopen hfront]
        exact Option.some_ne_none close

/-- Clauses have the literals of their pieces. -/
theorem clausesOf_literals (pieces : List (List Char)) :
    (clausesOf pieces).flatMap quotedLiterals = pieces.flatMap (quotedLiteralsFrom none) := by
  induction pieces with
  | nil => rfl
  | cons piece pieces ih =>
    have hpiece := quotedLiterals_trim (.ofList piece)
    rw [quotedLiterals.eq_1 (.ofList piece), String.toList_ofList] at hpiece
    rw [clausesOf] at ih ⊢
    rw [List.map_cons, List.filter_cons, List.flatMap_cons, ← ih, ← hpiece]
    split_ifs with hne
    · rw [List.flatMap_cons]
    · have hempty : trim (.ofList piece) = "" := by simpa using hne
      rw [hempty]
      rfl

/-- A text between whose connectives there are only blanks has no literals. -/
theorem ScannedPieces.literals_blank (h : ScannedPieces goal pieces)
    (hnone : clausesOf pieces = []) : quotedLiteralsFrom none goal = [] := by
  refine quotedLiteralsFrom_unquoted fun c hc => ?_
  by_contra hquote
  have hmem := (h.mem_flatten_iff unquoted_of_connective hquote).mpr hc
  have hcount := countP_clausesOf pieces
  rw [hnone, List.flatMap_nil, List.countP_nil, eq_comm, List.countP_eq_zero] at hcount
  have hblank : isWhitespace c = true := by simpa using hcount c hmem
  exact hquote (Unquoted.of_isWhitespace c hblank)

/-- The clauses have the literals of the goal when its pieces do. -/
theorem splitSequentialClauses_literals_iff {goal : String} (h : ScannedPieces goal.toList pieces) :
    (splitSequentialClauses goal).flatMap quotedLiterals = quotedLiterals goal ↔
      pieces.flatMap (quotedLiteralsFrom none) = quotedLiteralsFrom none goal.toList := by
  have hgoal : quotedLiterals goal = quotedLiteralsFrom none goal.toList := rfl
  rw [splitSequentialClauses_eq, sequentialFrom_eq_iff.mpr h, ← clausesOf_literals]
  split_ifs with hnone hblank
  · rw [hgoal, ScannedPieces.literals_blank h hnone, hnone]
  · have hlit := quotedLiterals_trim goal
    rw [hgoal, ScannedPieces.literals_blank h hnone] at hlit ⊢
    rw [hnone, List.flatMap_singleton, hlit]
    rfl
  · rw [hgoal]

end Connectives

section Waits

variable {clause : String} {before after tail : List Char}

/-- No boundary between the pieces of a clause stands inside a literal, and they have its literals.
Every piece but the last is a front of the clause. -/
def PiecesKeepLiterals (clause : String) (pieces : List String) : Prop :=
  (∀ piece ∈ pieces.dropLast, ∃ rest, clause.toList = piece.toList ++ rest ∧
    ¬ InLiteral piece.toList rest) ∧ pieces.flatMap quotedLiterals = quotedLiterals clause

/-- The bytes that go with a pattern are whole characters. Where something is left on both sides,
the cut is not inside a literal, and what is left behind it has the literals that the clause has
there: none where a quote is open that is never closed. -/
def CutsOutside (before after : List Char) (pat : String) : Prop :=
  ∃ cut tail, after = cut ++ tail ∧ byteLen cut = waitDrop pat ∧
    (((∀ c ∈ before, isSeparator c) ∨ ∀ c ∈ tail, isWhitespace c) ∨
      ¬ InLiteral before after ∧ quotedLiteralsFrom none tail =
        if openQuote Text.closingQuote before = none then quotedLiteralsFrom none after else [])

/-- At every place outside straight quotes that the wait scan of a clause comes to, a character of
the lowercased copy starts, and a pattern there cuts the clause outside its literals. -/
def WaitOutside (lex : Lexicon) (clause : String) : Prop :=
  ScanFits (lex.strLowercase clause).toList CutsOutside [] clause.toList

theorem piecesKeepLiterals_whole (clause : String) : PiecesKeepLiterals clause [clause] :=
  ⟨fun piece hpiece => absurd hpiece List.not_mem_nil, by rw [List.flatMap_singleton]⟩

theorem Unquoted.of_isSeparator (c : Char) (h : isSeparator c = true) : Unquoted c := by
  refine ⟨?_, ?_, ?_⟩ <;> (intro hc; rw [hc] at h; revert h; decide)

/-- Literals on both sides of a cut that is outside literals. -/
theorem literals_cut_iff (h : ¬ InLiteral before after) :
    quotedLiteralsFrom none before ++ quotedLiteralsFrom none tail =
      quotedLiteralsFrom none (before ++ after) ↔ quotedLiteralsFrom none tail =
        if openQuote Text.closingQuote before = none then quotedLiteralsFrom none after else [] := by
  cases hopen : openQuote Text.closingQuote before with
  | none => rw [quotedLiteralsFrom_append hopen, List.append_cancel_left_eq, if_pos rfl]
  | some close =>
    rw [quotedLiteralsFrom_append_open hopen (notMem_of_not_inLiteral h hopen),
      List.append_right_eq_self, if_neg (Option.some_ne_none close)]

theorem piecesKeepLiterals_pair_iff (h : clause.toList = before ++ after) :
    PiecesKeepLiterals clause
        [.ofList (trimEndMatches isSeparator before), .ofList (trimStart tail)] ↔
      ¬ InLiteral before after ∧ quotedLiteralsFrom none tail =
        if openQuote Text.closingQuote before = none then quotedLiteralsFrom none after else [] := by
  obtain ⟨hlit, hopen⟩ := trimEndMatches_quotes Unquoted.of_isSeparator before
  have htail : quotedLiteralsFrom none (trimStart tail) = quotedLiteralsFrom none tail :=
    quotedLiteralsFrom_dropWhile Unquoted.of_isWhitespace tail
  have hbefore : before = trimEndMatches isSeparator before ++ before.rtakeWhile isSeparator :=
    (List.rdropWhile_append_rtakeWhile ..).symm
  have hcut : clause.toList = trimEndMatches isSeparator before ++
      (before.rtakeWhile isSeparator ++ after) := by
    rw [h, ← List.append_assoc, ← hbefore]
  have hinside : InLiteral (trimEndMatches isSeparator before)
      (before.rtakeWhile isSeparator ++ after) ↔ InLiteral before after := by
    rw [inLiteral_append_unquoted fun c hc => .of_isSeparator c (List.mem_rtakeWhile_imp hc),
      inLiteral_congr hopen]
  have hfront : (∀ piece ∈ [String.ofList (trimEndMatches isSeparator before),
      .ofList (trimStart tail)].dropLast, ∃ rest, clause.toList = piece.toList ++ rest ∧
        ¬ InLiteral piece.toList rest) ↔ ¬ InLiteral before after := by
    have hdrop : [String.ofList (trimEndMatches isSeparator before),
        .ofList (trimStart tail)].dropLast = [.ofList (trimEndMatches isSeparator before)] := rfl
    rw [hdrop, List.forall_mem_singleton, String.toList_ofList, ← hinside]
    constructor
    · intro ⟨rest, hrest, hout⟩
      rwa [List.append_cancel_left (hcut.symm.trans hrest)]
    · exact fun hout => ⟨_, hcut, hout⟩
  rw [PiecesKeepLiterals, hfront]
  refine and_congr_right fun hout => ?_
  rw [← literals_cut_iff hout, List.flatMap_cons, List.flatMap_singleton, quotedLiterals,
    quotedLiterals, quotedLiterals, String.toList_ofList, String.toList_ofList, hlit, htail, h]

theorem cutAt_keepLiterals_iff (h : clause.toList = before ++ after) (pat : String) :
    (∃ pieces, cutAt clause before after pat = some pieces ∧ PiecesKeepLiterals clause pieces) ↔
      CutsOutside before after pat := by
  rw [cutAt_iff]
  refine exists_congr fun cut => exists_congr fun tail => and_congr_right fun hafter =>
    and_congr_right fun _ => ?_
  by_cases hwhole : (∀ c ∈ before, isSeparator c = true) ∨ ∀ c ∈ tail, isWhitespace c = true
  · rw [cutPieces_whole hwhole]
    exact iff_of_true (piecesKeepLiterals_whole clause) (.inl hwhole)
  · rw [or_iff_right hwhole]
    rw [not_or] at hwhole
    rw [cutPieces_pair hwhole.1 hwhole.2, piecesKeepLiterals_pair_iff h]

/-- The wait splitter keeps the literals of a clause exactly where its scan goes well. -/
theorem splitWait_keepLiterals_iff {lex : Lexicon} {clause : String} :
    (∃ pieces, splitWait lex clause = some pieces ∧ PiecesKeepLiterals clause pieces) ↔
      WaitOutside lex clause :=
  scanFrom_good_iff (piecesKeepLiterals_whole clause)
    (fun _ _ pat h => cutAt_keepLiterals_iff h pat) clause.toList [] rfl

/-- A lexicon for a letter whose lowercase is a byte shorter. -/
def sharpLexicon : Lexicon := { Lexicon.ascii with
  strLowercase := fun s =>
    .ofList (s.toList.map fun c => if c = '\u1e9e' then '\u00df' else c.toLower) }

-- Nothing is sliced inside straight quotes.
example : WaitOutside sharpLexicon "type \"GRO\u1e9e\"" :=
  splitWait_keepLiterals_iff.mp ⟨["type \"GRO\u1e9e\""], by decide +kernel,
    piecesKeepLiterals_whole _⟩

end Waits

/-- No clause boundary stands inside a literal, and the clauses have the literals of the goal. -/
structure KeepsLiterals (lex : Lexicon) (goal : String) : Prop where
  connectives : BoundariesOutside (sequentialFrom 0 none [] goal.toList)
  waits : ∀ clause ∈ splitSequentialClauses goal, ∃ pieces, splitWait lex clause = some pieces ∧
    PiecesKeepLiterals clause pieces
  literals : ∃ clauses,
    ((splitSequentialClauses goal).mapM (splitWait lex)).map List.flatten = some clauses ∧
      clauses.flatMap quotedLiterals = quotedLiterals goal

/-- Splitting every clause keeps the literals when splitting each one does. -/
theorem mapM_splitWait_literals {lex : Lexicon} {clauses : List String}
    (h : ∀ clause ∈ clauses, ∃ pieces, splitWait lex clause = some pieces ∧
      PiecesKeepLiterals clause pieces) :
    ∃ pieces, (clauses.mapM (splitWait lex)).map List.flatten = some pieces ∧
      pieces.flatMap quotedLiterals = clauses.flatMap quotedLiterals := by
  induction clauses with
  | nil => exact ⟨[], rfl, rfl⟩
  | cons clause clauses ih =>
    rw [List.forall_mem_cons] at h
    obtain ⟨⟨pieces, hsplit, -, hlit⟩, hrest⟩ := h
    obtain ⟨more, hmore, hlits⟩ := ih hrest
    obtain ⟨rows, hrows, rfl⟩ := Option.map_eq_some_iff.mp hmore
    refine ⟨pieces ++ rows.flatten, ?_, ?_⟩
    · rw [List.mapM_cons, hsplit, hrows]
      rfl
    · rw [List.flatMap_append, hlit, hlits, List.flatMap_cons]

/-- Splitting a goal respects its literals exactly when no connective outside straight quotes and
apostrophes stands inside one, no piece behind a quote that is never closed has one, and the wait
scan of each clause goes well. -/
theorem keepsLiterals_iff (lex : Lexicon) (goal : String) :
    KeepsLiterals lex goal ↔ ConnectivesOutside goal.toList ∧ BareBehindStray goal.toList ∧
      ∀ clause ∈ splitSequentialClauses goal, WaitOutside lex clause := by
  have hscanned := sequentialFrom_eq_iff.mp (Eq.refl (sequentialFrom 0 none [] goal.toList))
  have hbare : BareBehindStray goal.toList ↔ ∀ front piece back,
      sequentialFrom 0 none [] goal.toList = front ++ piece :: back →
        openQuote Text.closingQuote front.flatten ≠ none →
          quotedLiteralsFrom none piece = [] := by
    refine ⟨fun h => h _ hscanned, fun h pieces hpieces => ?_⟩
    obtain rfl := hscanned.unique hpieces
    exact h
  have hwaits : (∀ clause ∈ splitSequentialClauses goal, ∃ pieces,
      splitWait lex clause = some pieces ∧ PiecesKeepLiterals clause pieces) ↔
        ∀ clause ∈ splitSequentialClauses goal, WaitOutside lex clause :=
    forall₂_congr fun _ _ => splitWait_keepLiterals_iff
  constructor
  · intro h
    obtain ⟨clauses, hclauses, hlit⟩ := h.literals
    obtain ⟨clauses', hclauses', hlit'⟩ := mapM_splitWait_literals h.waits
    obtain rfl := Option.some_inj.mp (hclauses.symm.trans hclauses')
    refine ⟨(boundariesOutside_iff hscanned).mp h.connectives, hbare.mpr ?_, hwaits.mp h.waits⟩
    rw [← ScannedPieces.literals_iff hscanned h.connectives,
      ← splitSequentialClauses_literals_iff hscanned, ← hlit', hlit]
  · intro ⟨hconn, hstray, hwait⟩
    have hboundaries := (boundariesOutside_iff hscanned).mpr hconn
    obtain ⟨clauses, hclauses, hlit⟩ := mapM_splitWait_literals (hwaits.mpr hwait)
    refine ⟨hboundaries, hwaits.mpr hwait, clauses, hclauses, ?_⟩
    rw [hlit, splitSequentialClauses_literals_iff hscanned,
      ScannedPieces.literals_iff hscanned hboundaries]
    exact hbare.mp hstray

-- The lists alone can coincide although a boundary stands inside a literal.
example : ["type \u201cx", "y\u201d \u201c", "\"x then y\""].flatMap quotedLiterals =
    quotedLiterals "type \u201cx then y\u201d \u201c then \"x then y\"" := by decide +kernel

/-- A connective in curly quotes cuts the literal in two. -/
theorem curly_literal_cut : ¬ ∀ (lex : Lexicon) (goal : String), KeepsLiterals lex goal := by
  intro h
  obtain ⟨clauses, hclauses, hlit⟩ := (h .ascii "type \u201ca then b\u201d").literals
  have hcut : ((splitSequentialClauses "type \u201ca then b\u201d").mapM
      (splitWait .ascii)).map List.flatten = some ["type \u201ca", "b\u201d"] := by decide +kernel
  obtain rfl := Option.some_inj.mp (hclauses.symm.trans hcut)
  exact absurd hlit (by decide +kernel)

end GpuiAgent
