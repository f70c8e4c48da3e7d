import GpuiAgent.Framework.Cuts
import GpuiAgent.Policy.ClauseSplit

namespace GpuiAgent

open Framework Framework.Quotes

section Boundary

/-- The pieces of a goal between the connectives outside its closed quotes. -/
abbrev ExactPieces : List Char → List (List Char) → Prop :=
  CutPieces matchConnective (OutsidePairs clauseQuote)

/-- The pieces between the connectives where the splitter has no quote open. -/
abbrev ScannedPieces : List Char → List (List Char) → Prop :=
  CutPieces matchConnective fun before _ => openQuote clauseQuote before = none

/-- The pieces that are not blank, trimmed. -/
def clausesOf (pieces : List (List Char)) : List String :=
  (pieces.map fun piece => trim (.ofList piece)).filter fun clause => !clause.isEmpty

theorem matchConnective_fits {cs : List Char} {len : Nat} (h : matchConnective cs = some len) :
    ∃ conn rest, cs = conn ++ rest ∧ conn.length = len ∧ 0 < len := by
  obtain ⟨hpos, conn, rest, hcs, hlen, -⟩ := matchConnective_spec h
  exact ⟨conn, rest, hcs, hlen, hpos⟩

theorem matchConnective_grows (r x : List Char) (h : matchConnective (r ++ x) = none) :
    matchConnective r = none := by
  have hpre : ∀ pat : List Char, pat.isPrefixOf (r.map Char.toLower) = true →
      pat.isPrefixOf ((r ++ x).map Char.toLower) = true := by
    intro pat hpat
    rw [List.isPrefixOf_iff_prefix] at hpat ⊢
    rw [List.map_append]
    exact hpat.trans (List.prefix_append _ _)
  unfold matchConnective at h ⊢
  simp only at h ⊢
  split_ifs at h with hlong hshort
  rw [if_neg fun hpat => hlong (hpre _ hpat), if_neg fun hpat => hshort (hpre _ hpat)]

theorem toLower_whitespace {c : Char} (h : isWhitespace c = true) : c.toLower = c := by
  unfold Char.toLower
  refine dif_neg fun hup => ?_
  have hlow : 65 ≤ c.toNat := UInt32.le_iff_toNat_le.mp hup.1
  have hhigh : c.toNat ≤ 90 := UInt32.le_iff_toNat_le.mp hup.2
  simp only [isWhitespace, Bool.or_eq_true, Bool.and_eq_true, decide_eq_true_eq] at h
  omega

/-- A connective is not blank. -/
theorem matchConnective_visible {conn rest : List Char}
    (h : matchConnective (conn ++ rest) = some conn.length) :
    0 < conn.countP fun c => !isWhitespace c := by
  have hpat : ∃ pat : List Char, 't' ∈ pat ∧ pat.length = conn.length ∧
      pat <+: conn.map Char.toLower ++ rest.map Char.toLower := by
    unfold matchConnective at h
    simp only [List.map_append] at h
    split_ifs at h with hlong hshort
    · exact ⟨" and then ".toList, by decide, Option.some_inj.mp h,
        List.isPrefixOf_iff_prefix.mp hlong⟩
    · exact ⟨" then ".toList, by decide, Option.some_inj.mp h,
        List.isPrefixOf_iff_prefix.mp hshort⟩
  obtain ⟨pat, ht, hlen, hpre⟩ := hpat
  have hconn : pat <+: conn.map Char.toLower :=
    List.prefix_of_prefix_length_le hpre (List.prefix_append _ _) (by rw [List.length_map, hlen])
  obtain ⟨c, hc, hlower⟩ := List.mem_map.mp (hconn.subset ht)
  rw [List.countP_pos_iff]
  refine ⟨c, hc, ?_⟩
  rw [Bool.not_eq_true', ← Bool.not_eq_true]
  intro hspace
  rw [toLower_whitespace hspace] at hlower
  rw [hlower] at hspace
  exact absurd hspace (by decide)

/-- The splitter cuts where it has no quote open. -/
theorem scannedPieces (cs : List Char) : ∃ p ps, ScannedPieces cs (p :: ps) ∧
    ∀ clause, sequentialFrom 0 none clause cs = (clause.reverse ++ p) :: ps := by
  induction cs using sequential_induction with
  | nil =>
    refine ⟨[], [], .last fun before rest h _ => ?_, fun clause => ?_⟩
    · obtain ⟨rfl, rfl⟩ := List.append_eq_nil_iff.mp h.symm
      rfl
    · rw [sequentialFrom, List.append_nil]
  | connective conn rest hm hpos hconn ih =>
    obtain ⟨p, ps, hps, heq⟩ := ih
    have hcut : ScannedPieces ([] ++ (conn ++ rest)) ([] :: p :: ps) :=
      .cut rfl hm (fun b r _ hlt => absurd hlt (Nat.not_lt_zero _)) hps
    refine ⟨[], p :: ps, hcut, fun clause => ?_⟩
    rw [sequentialFrom_connective hm hpos fun c hc => (hconn c hc).2, heq, List.append_nil]
    rfl
  | plain c cs hc hm ih =>
    obtain ⟨p, ps, hps, heq⟩ := ih
    have hfront : ScannedPieces ([c] ++ cs) (([c] ++ p) :: ps) := by
      refine hps.prepend (fun b r hbr hlt _ => ?_) fun b r _ => ?_
      · obtain rfl := List.length_eq_zero_iff.mp (Nat.lt_one_iff.mp hlt)
        rw [List.nil_append] at hbr
        exact hbr ▸ hm
      · rw [List.singleton_append, openQuote_cons_plain hc]
    refine ⟨c :: p, ps, hfront, fun clause => ?_⟩
    rw [sequentialFrom_plain hc hm, heq, List.reverse_cons, List.append_assoc]
    rfl
  | unclosed c q cs hc hq =>
    refine ⟨c :: cs, [], .last fun before rest h hout => ?_, fun clause => ?_⟩
    · obtain rfl := split_unclosed hc hq h hout
      rw [List.nil_append] at h
      rw [← h, matchConnective_quote hc]
    · rw [sequentialFrom_opening hc, sequentialFrom_unclosed hq, List.reverse_cons,
        List.append_assoc]
      rfl
  | segment c q text cs hc htext ih =>
    obtain ⟨p, ps, hps, heq⟩ := ih
    have hassoc : ∀ b, c :: (text ++ [q]) ++ b = c :: (text ++ q :: b) := fun b => by simp
    have hfront : ScannedPieces (c :: (text ++ [q]) ++ cs) ((c :: (text ++ [q]) ++ p) :: ps) := by
      refine hps.prepend (fun b r hbr hlt hout => ?_) fun b r _ => ?_
      · rw [hassoc] at hbr
        rcases split_segment hc htext hbr hout with rfl | ⟨b', rfl, -, -⟩
        · rw [List.nil_append] at hbr
          rw [← hbr, matchConnective_quote hc]
        · simp at hlt
      · rw [hassoc, openQuote_segment hc htext]
    rw [hassoc, hassoc] at hfront
    refine ⟨c :: (text ++ q :: p), ps, hfront, fun clause => ?_⟩
    rw [sequentialFrom_opening hc, sequentialFrom_quoted htext, heq]
    simp

theorem sequentialFrom_eq_iff {cs : List Char} {ps : List (List Char)} :
    sequentialFrom 0 none [] cs = ps ↔ ScannedPieces cs ps := by
  obtain ⟨p, ps', hscanned, heq⟩ := scannedPieces cs
  have hfrom : sequentialFrom 0 none [] cs = p :: ps' := heq []
  rw [hfrom]
  exact ⟨fun h => h ▸ hscanned, hscanned.unique⟩

/-- No connective outside the closed quotes has a quote in front of it that is never closed. -/
def NoStrayQuote (goal : List Char) : Prop :=
  ∀ before rest, goal = before ++ rest → OutsidePairs clauseQuote before rest →
    matchConnective rest ≠ none → openQuote clauseQuote before = none

theorem openQuote_connective {conn rest b r : List Char}
    (h : matchConnective (conn ++ rest) = some conn.length) (hb : conn = b ++ r) :
    openQuote clauseQuote b = none := by
  obtain ⟨-, conn', rest', heq, hlen, hchars⟩ := matchConnective_spec h
  obtain ⟨rfl, -⟩ := List.append_inj heq hlen.symm
  exact openQuote_of_plain fun c hc => (hchars c (hb ▸ List.mem_append_left r hc)).2

/-- Without a stray quote both scans cut at the same places. -/
theorem ExactPieces.scanned {cs : List Char} {ps : List (List Char)} (h : ExactPieces cs ps)
    (hstray : NoStrayQuote cs) : ScannedPieces cs ps := by
  induction h with
  | last whole =>
    exact .last fun b r hbr hout => whole b r hbr (.of_openQuote hout r)
  | @cut before conn rest ps here length first behind ih =>
    have hopen : openQuote clauseQuote before = none :=
      hstray before (conn ++ rest) rfl here (by rw [length]; exact Option.some_ne_none _)
    refine .cut hopen length (fun b r hbr hlt hout => first b r hbr hlt (.of_openQuote hout r))
      (ih fun b r hbr hout hm => ?_)
    have hconn := openQuote_connective length (List.append_nil conn).symm
    have hfront : openQuote clauseQuote (before ++ conn) = none := by
      rw [openQuote_append hopen, hconn]
    have hall := hstray (before ++ conn ++ b) r (by rw [hbr]; simp)
      ((OutsidePairs.of_openQuote hfront _).append hout) hm
    rwa [openQuote_append hfront] at hall

/-- A stray quote keeps the splitter from a cut, and the text of the connective is not dropped. -/
theorem ExactPieces.visible_lt {cs : List Char} {ps qs : List (List Char)}
    (h : ExactPieces cs ps) (hqs : ScannedPieces cs qs) (hstray : ¬ NoStrayQuote cs) :
    ps.flatten.countP (fun c => !isWhitespace c) < qs.flatten.countP fun c => !isWhitespace c := by
  induction h generalizing qs with
  | last whole =>
    refine absurd (fun before rest hcs hout hm => ?_) hstray
    exact absurd (whole before rest hcs hout) hm
  | @cut before conn rest ps here length first behind ih =>
    have hvisible := matchConnective_visible length
    cases hopen : openQuote clauseQuote before with
    | none =>
      -- the splitter makes this cut too, and the stray quote is behind it
      obtain ⟨q, qs', hqs', -⟩ := scannedPieces rest
      have hcut : ScannedPieces (before ++ (conn ++ rest)) (before :: q :: qs') :=
        .cut hopen length (fun b r hbr hlt hout => first b r hbr hlt (.of_openQuote hout r)) hqs'
      obtain rfl := hqs.unique hcut
      have hlt := ih hqs' fun hrest => hstray fun b r hbr hout hm => ?_
      · rw [List.flatten_cons, List.flatten_cons, List.countP_append, List.countP_append]
        exact Nat.add_lt_add_left hlt _
      · rcases cut_cases hbr with hshort | ⟨b', r', hb', rfl, rfl⟩ | ⟨b', rfl, hrest'⟩
        · exact absurd (first b r hbr hshort hout) hm
        · rw [openQuote_append hopen]
          exact openQuote_connective length hb'
        · have hconn := openQuote_connective length (List.append_nil conn).symm
          rw [openQuote_append hopen, openQuote_append hconn]
          have hfront : openQuote clauseQuote (before ++ conn) = none := by
            rw [openQuote_append hopen, hconn]
          exact hrest b' r hrest' (hout.behind (by simp) hfront) hm
    | some close =>
      -- the splitter makes no cut at all
      have hclose : close ∉ conn ++ rest := by
        rcases here.openQuote_cases with hnone | ⟨close', hsome, hclose⟩
        · rw [hopen] at hnone
          cases hnone
        · rw [hopen] at hsome
          exact Option.some_inj.mp hsome ▸ hclose
      have hwhole : ScannedPieces (before ++ (conn ++ rest)) [before ++ (conn ++ rest)] := by
        refine .last fun b r hbr hout => ?_
        rcases Nat.lt_or_ge b.length before.length with hshort | hlong
        · exact first b r hbr hshort (.of_openQuote hout r)
        · obtain ⟨b', rfl, hbr'⟩ := append_eq_append_of_le hbr hlong
          have hb' : close ∉ b' := fun hmem => hclose (hbr' ▸ List.mem_append_left r hmem)
          rw [openQuote, List.foldl_append, ← openQuote, hopen, foldl_step_of_notMem hb'] at hout
          cases hout
      obtain rfl := hqs.unique hwhole
      have hle := behind.countP_flatten_le fun c => !isWhitespace c
      rw [List.flatten_cons, List.flatten_singleton, List.countP_append, List.countP_append,
        List.countP_append]
      omega

end Boundary

section Clauses

theorem countP_blank {cs : List Char} (h : ∀ c ∈ cs, isWhitespace c = true) :
    cs.countP (fun c => !isWhitespace c) = 0 := by
  rw [List.countP_eq_zero]
  intro c hc
  simp [h c hc]

theorem countP_trim (s : String) : (trim s).toList.countP (fun c => !isWhitespace c) =
    s.toList.countP fun c => !isWhitespace c := by
  obtain ⟨pre, post, hs, hpre, hpost⟩ := trim_split s
  rw [hs, List.countP_append, List.countP_append, countP_blank hpre, countP_blank hpost]
  omega

/-- The clauses keep what is visible of the pieces. -/
theorem countP_clausesOf (pieces : List (List Char)) :
    ((clausesOf pieces).flatMap String.toList).countP (fun c => !isWhitespace c) =
      pieces.flatten.countP fun c => !isWhitespace c := by
  induction pieces with
  | nil => rfl
  | cons piece pieces ih =>
    have hpiece := countP_trim (.ofList piece)
    rw [String.toList_ofList] at hpiece
    rw [clausesOf] at ih ⊢
    rw [List.map_cons, List.filter_cons, List.flatten_cons, List.countP_append]
    split_ifs with hne
    · rw [List.flatMap_cons, List.countP_append, ih, hpiece]
    · have hempty : trim (.ofList piece) = "" := by simpa using hne
      rw [hempty] at hpiece
      rw [ih, ← hpiece]
      simp

theorem splitSequentialClauses_eq (goal : String) : splitSequentialClauses goal =
    if clausesOf (sequentialFrom 0 none [] goal.toList) = [] then
      if trim goal = "" then [] else [trim goal]
    else clausesOf (sequentialFrom 0 none [] goal.toList) := by
  change (if (clausesOf (sequentialFrom 0 none [] goal.toList)).isEmpty = true then
      if (trim goal).isEmpty = true then [] else [trim goal]
    else clausesOf (sequentialFrom 0 none [] goal.toList)) = _
  by_cases hnone : clausesOf (sequentialFrom 0 none [] goal.toList) = []
  · rw [if_pos hnone, if_pos (List.isEmpty_iff.mpr hnone)]
    by_cases hblank : trim goal = ""
    · rw [if_pos hblank, if_pos (String.isEmpty_iff.mpr hblank)]
    · rw [if_neg hblank, if_neg fun h => hblank (String.isEmpty_iff.mp h)]
  · rw [if_neg hnone, if_neg fun h => hnone (List.isEmpty_iff.mp h)]

theorem clauseQuote_whitespace {c : Char} (h : isWhitespace c = true) : clauseQuote c = none := by
  refine if_neg ?_
  rintro (rfl | rfl)
  · exact absurd h (by decide)
  · exact absurd h (by decide)

/-- A piece of a split is not split again, and no more so when it is trimmed. -/
theorem splitSequentialClauses_piece {cs piece : List Char} {ps : List (List Char)}
    (h : ScannedPieces cs ps) (hpiece : piece ∈ ps) (hne : trim (.ofList piece) ≠ "") :
    splitSequentialClauses (trim (.ofList piece)) = [trim (.ofList piece)] := by
  have hwhole := h.piece_whole rfl matchConnective_grows hpiece
  obtain ⟨pre, post, hsplit, hpre, -⟩ := trim_split (.ofList piece)
  rw [String.toList_ofList] at hsplit
  have htrim : ScannedPieces (trim (.ofList piece)).toList [(trim (.ofList piece)).toList] := by
    refine .last fun b r hbr hout => matchConnective_grows r post (hwhole (pre ++ b) _ ?_ ?_)
    · rw [hsplit, hbr]
      simp
    · rw [openQuote_append (openQuote_of_plain fun c hc => ?_), hout]
      exact clauseQuote_whitespace (hpre c hc)
  rw [splitSequentialClauses_eq, sequentialFrom_eq_iff.mpr htrim]
  simp [clausesOf, hne]

/-- The clauses of a goal are its exact pieces, and none of them can be split again. -/
def ExactClauses (goal : String) : Prop :=
  ∃ pieces, ExactPieces goal.toList pieces ∧ splitSequentialClauses goal = clausesOf pieces ∧
    ∀ clause ∈ splitSequentialClauses goal, splitSequentialClauses clause = [clause]

/-- Something of the goal is left when it is cut at its connectives, or it is blank. -/
def MoreThanConnectives (goal : String) : Prop :=
  trim goal = "" ∨ ∃ pieces, ExactPieces goal.toList pieces ∧ clausesOf pieces ≠ []

theorem ExactClauses.noStrayQuote {goal : String} (h : ExactClauses goal) :
    NoStrayQuote goal.toList := by
  obtain ⟨pieces, hpieces, hsplit, -⟩ := h
  obtain ⟨q, qs, hscanned, hfrom⟩ := scannedPieces goal.toList
  rw [splitSequentialClauses_eq, hfrom [], List.reverse_nil, List.nil_append] at hsplit
  by_contra hstray
  have hlt := ExactPieces.visible_lt hpieces hscanned hstray
  rw [← countP_clausesOf, ← countP_clausesOf (q :: qs)] at hlt
  by_cases hnone : clausesOf (q :: qs) = []
  · rw [hnone] at hlt
    exact absurd hlt (Nat.not_lt_zero _)
  · rw [if_neg hnone] at hsplit
    rw [hsplit] at hlt
    exact lt_irrefl _ hlt

/-- The splitter is exact where no stray quote stands in front of a connective and the goal is not
made of connectives alone. -/
theorem exactClauses_iff (goal : String) :
    ExactClauses goal ↔ NoStrayQuote goal.toList ∧ MoreThanConnectives goal := by
  obtain ⟨q, qs, hscanned, hfrom⟩ := scannedPieces goal.toList
  have hcode : sequentialFrom 0 none [] goal.toList = q :: qs := hfrom []
  constructor
  · intro h
    refine ⟨h.noStrayQuote, ?_⟩
    obtain ⟨pieces, hpieces, hsplit, -⟩ := h
    rw [splitSequentialClauses_eq, hcode] at hsplit
    split_ifs at hsplit with hnone hblank
    · exact .inl hblank
    · exact .inr ⟨pieces, hpieces, by rw [← hsplit]; exact List.cons_ne_nil _ _⟩
    · exact .inr ⟨pieces, hpieces, by rwa [← hsplit]⟩
  · rintro ⟨hstray, hmore⟩
    obtain ⟨pieces, hpieces⟩ : ∃ pieces, ExactPieces goal.toList pieces :=
      CutPieces.exists_pieces (fun _ _ => matchConnective_fits) goal.toList
    obtain rfl := hscanned.unique (ExactPieces.scanned hpieces hstray)
    have hsplit : splitSequentialClauses goal = clausesOf (q :: qs) := by
      rw [splitSequentialClauses_eq, hcode]
      split_ifs with hnone hblank
      · exact hnone.symm
      · rcases hmore with hblank' | ⟨pieces, hpieces', hne⟩
        · exact absurd hblank' hblank
        · rw [hpieces'.unique hpieces] at hne
          exact absurd hnone hne
      · rfl
    refine ⟨q :: qs, hpieces, hsplit, fun clause hclause => ?_⟩
    rw [hsplit, clausesOf, List.mem_filter, List.mem_map] at hclause
    obtain ⟨⟨piece, hpiece, rfl⟩, hne⟩ := hclause
    exact splitSequentialClauses_piece hscanned hpiece (by simpa using hne)

/-- An apostrophe keeps the goal in one clause. -/
theorem not_exactClauses_apostrophe : ¬ ∀ goal, ExactClauses goal := by
  intro h
  have hstray := (h "Click Don't save then click OK").noStrayQuote
  have hapostrophe : OutsidePairs clauseQuote ('\x27' :: "t save".toList)
      " then click OK".toList := .unclosed rfl (by decide) (.of_openQuote (by decide) _)
  have hcut : OutsidePairs clauseQuote ("Click Don".toList ++ '\x27' :: "t save".toList)
      " then click OK".toList := .append (.of_openQuote (by decide) _) hapostrophe
  have hopen := hstray _ " then click OK".toList (by decide) hcut (by decide)
  exact absurd hopen (by decide)

end Clauses

end GpuiAgent
