import GpuiAgent.Framework.Quotes
import GpuiAgent.Policy.Clause

namespace GpuiAgent

open Framework Framework.Quotes

/-- The quotes that the wait splitter respects. -/
def waitQuote (c : Char) : Option Char := if c = '"' then some '"' else none

/-- The scan looks for a pattern in front of a character that is not quoted. -/
def Looks (before : List Char) (c : Char) : Prop := c ≠ '"' ∧ openQuote waitQuote before = none

/-- How many bytes of a pattern the splitter drops. -/
def waitDrop (pat : String) : Nat := if startsWith pat " and" then 5 else 1

/-- The blanks and commas that the wait splitter cuts off a head. -/
def isSeparator (c : Char) : Bool := c = ' ' || c = ','

section Places

variable (lower : List Char) (Cut : List Char → List Char → String → Prop)

/-- The wait pattern of the lowercased copy at the byte where `before` ends. -/
def waitAtByte (before : List Char) : Option String :=
  (dropBytes (byteLen before) lower).bind fun rest =>
    WAIT_PATTERNS.find? fun pat => pat.toList.isPrefixOf rest

/-- The lowercased copy has a character starting here, and a pattern there makes a cut that will
do. -/
def PlaceFits (before after : List Char) : Prop :=
  (dropBytes (byteLen before) lower).isSome ∧
    ∀ pat, waitAtByte lower before = some pat → Cut before after pat

/-- Every place of `cs` that the scan comes to fits. It stops at the first pattern. -/
def ScanFits (before cs : List Char) : Prop :=
  ∀ mid c after, cs = mid ++ c :: after → Looks (before ++ mid) c →
    (∀ earlier d rest, mid = earlier ++ d :: rest → Looks (before ++ earlier) d →
      waitAtByte lower (before ++ earlier) = none) →
    PlaceFits lower Cut (before ++ mid) (c :: after)

variable {lower Cut}

theorem scanFits_cons {before cs : List Char} {c : Char} :
    ScanFits lower Cut before (c :: cs) ↔
      (Looks before c → PlaceFits lower Cut before (c :: cs)) ∧
      ((Looks before c → waitAtByte lower before = none) →
        ScanFits lower Cut (before ++ [c]) cs) := by
  have hmove : ∀ mid, before ++ [c] ++ mid = before ++ c :: mid := by simp
  constructor
  · intro h
    refine ⟨fun hlooks => ?_, fun hnone => ?_⟩
    · have hfits := h [] c cs rfl
      rw [List.append_nil] at hfits
      exact hfits hlooks fun earlier d rest hmid => by simp at hmid
    · intro mid d after hcs hlooks hfirst
      rw [hmove] at hlooks ⊢
      refine h (c :: mid) d after (by rw [hcs]; rfl) hlooks ?_
      intro earlier e rest hmid hearlier
      cases earlier with
      | nil =>
        obtain ⟨rfl, -⟩ := List.cons.inj hmid
        rw [List.append_nil] at hearlier ⊢
        exact hnone hearlier
      | cons e' earlier =>
        obtain ⟨rfl, htail⟩ := List.cons.inj hmid
        rw [← hmove] at hearlier ⊢
        exact hfirst earlier e rest htail hearlier
  · intro ⟨hhere, hlater⟩ mid d after hcs hlooks hfirst
    cases mid with
    | nil =>
      obtain ⟨rfl, rfl⟩ := List.cons.inj hcs
      rw [List.append_nil] at hlooks ⊢
      exact hhere hlooks
    | cons c' mid =>
      obtain ⟨rfl, rfl⟩ := List.cons.inj hcs
      have hnone : Looks before c → waitAtByte lower before = none := by
        intro hl
        have h := hfirst [] c mid rfl
        rw [List.append_nil] at h
        exact h hl
      rw [← hmove] at hlooks ⊢
      refine hlater hnone mid d after rfl hlooks ?_
      intro earlier e rest hmid hearlier
      rw [hmove] at hearlier ⊢
      exact hfirst (c :: earlier) e rest (by rw [hmid]; rfl) hearlier

end Places

section Cut

variable {clause : String} {before tail after : List Char}

/-- The pieces of a clause that is cut between `before` and `tail`. -/
def cutPieces (clause : String) (before tail : List Char) : List String :=
  let out := [trimEndMatches isSeparator before, trimStart tail].filter
    fun piece => !piece.isEmpty
  if 1 < out.length then out.map String.ofList else [clause]

/-- What the scan returns where it finds a pattern. -/
def cutAt (clause : String) (before after : List Char) (pat : String) : Option (List String) :=
  (dropBytes (waitDrop pat) after).map (cutPieces clause before)

theorem cutAt_iff {Good : List String → Prop} {pat : String} :
    (∃ pieces, cutAt clause before after pat = some pieces ∧ Good pieces) ↔
      ∃ cut tail, after = cut ++ tail ∧ byteLen cut = waitDrop pat ∧
        Good (cutPieces clause before tail) := by
  constructor
  · intro ⟨pieces, h, hgood⟩
    obtain ⟨tail, htail, rfl⟩ := Option.map_eq_some_iff.mp h
    obtain ⟨cut, hafter, hlen⟩ := dropBytes_eq_some_iff.mp htail
    exact ⟨cut, tail, hafter, hlen, hgood⟩
  · intro ⟨cut, tail, hafter, hlen, hgood⟩
    have htail := dropBytes_eq_some_iff.mpr ⟨cut, hafter, hlen⟩
    exact ⟨_, by rw [cutAt, htail, Option.map_some], hgood⟩

/-- Where nothing is left on one side the clause stays whole. -/
theorem cutPieces_whole
    (h : (∀ c ∈ before, isSeparator c = true) ∨ ∀ c ∈ tail, isWhitespace c = true) :
    cutPieces clause before tail = [clause] := by
  refine if_neg (Nat.not_lt.mpr ?_)
  rcases h with hbefore | htail
  · have hnil : trimEndMatches isSeparator before = [] := List.rdropWhile_eq_nil_iff.mpr hbefore
    rw [hnil, List.filter_cons_of_neg (by simp)]
    exact List.length_filter_le _ [trimStart tail]
  · have hnil : trimStart tail = [] := List.dropWhile_eq_nil_iff.mpr htail
    rw [hnil]
    cases trimEndMatches isSeparator before <;> simp

theorem cutPieces_pair (hbefore : ¬ ∀ c ∈ before, isSeparator c = true)
    (htail : ¬ ∀ c ∈ tail, isWhitespace c = true) : cutPieces clause before tail =
      [.ofList (trimEndMatches isSeparator before), .ofList (trimStart tail)] := by
  have hhead : trimEndMatches isSeparator before ≠ [] :=
    fun hnil => hbefore (List.rdropWhile_eq_nil_iff.mp hnil)
  have hrest : trimStart tail ≠ [] := fun hnil => htail (List.dropWhile_eq_nil_iff.mp hnil)
  have hout : [trimEndMatches isSeparator before, trimStart tail].filter
      (fun piece => !piece.isEmpty) = [trimEndMatches isSeparator before, trimStart tail] := by
    simp [hhead, hrest]
  rw [cutPieces, hout]
  rfl

end Cut

section Scan

variable (clause : String) {lower before cs : List Char} {c : Char}

/-- The scan with `before` read. -/
def scanFrom (lower before cs : List Char) : Option (List String) :=
  splitWaitFrom clause lower (openQuote waitQuote before).isSome (byteLen before) before.reverse cs

theorem openQuote_waitQuote_snoc (before : List Char) (c : Char) :
    (openQuote waitQuote (before ++ [c])).isSome =
      if c = '"' then !(openQuote waitQuote before).isSome
      else (openQuote waitQuote before).isSome := by
  rw [openQuote, List.foldl_concat]
  change (step waitQuote (openQuote waitQuote before) c).isSome = _
  cases hq : openQuote waitQuote before with
  | none =>
    rw [step, waitQuote]
    split_ifs <;> rfl
  | some close =>
    obtain rfl : close = '"' := by
      obtain ⟨opening, -, hopening⟩ := exists_opening hq
      unfold waitQuote at hopening
      split_ifs at hopening
      exact (Option.some_inj.mp hopening).symm
    rw [step]
    split_ifs <;> rfl

theorem scanFrom_snoc : scanFrom clause lower (before ++ [c]) cs =
    splitWaitFrom clause lower
      (if c = '"' then !(openQuote waitQuote before).isSome
        else (openQuote waitQuote before).isSome)
      (byteLen before + c.utf8Size) (c :: before.reverse) cs := by
  rw [scanFrom, openQuote_waitQuote_snoc, byteLen_append, List.reverse_append]
  rfl

theorem scanFrom_blind (h : ¬ Looks before c) :
    scanFrom clause lower before (c :: cs) = scanFrom clause lower (before ++ [c]) cs := by
  rw [scanFrom_snoc, scanFrom, splitWaitFrom]
  by_cases hc : c = '"'
  · rw [if_pos hc, if_pos hc]
  · rw [if_neg hc, if_neg hc]
    cases hq : openQuote waitQuote before with
    | none => exact absurd ⟨hc, hq⟩ h
    | some close => rfl

theorem scanFrom_looks (h : Looks before c) :
    scanFrom clause lower before (c :: cs) =
      match dropBytes (byteLen before) lower with
      | none => none
      | some _ => match waitAtByte lower before with
        | none => scanFrom clause lower (before ++ [c]) cs
        | some pat => cutAt clause before (c :: cs) pat := by
  rw [scanFrom_snoc, scanFrom, splitWaitFrom, h.2, waitAtByte, if_neg h.1, if_neg h.1]
  cases dropBytes (byteLen before) lower with
  | none => rfl
  | some rest =>
    dsimp only [Option.bind_some]
    cases WAIT_PATTERNS.find? fun pat => pat.toList.isPrefixOf rest with
    | none => rfl
    | some pat =>
      simp only [cutAt, List.reverse_reverse]
      change (match dropBytes (waitDrop pat) (c :: cs) with | none => none | some tail => _) = _
      cases dropBytes (waitDrop pat) (c :: cs) with
      | none => rfl
      | some tail => rfl

variable {clause}

/-- The pieces of the scan are good exactly where all it comes to fits, if that is so for each cut
and the whole clause is good. -/
theorem scanFrom_good_iff {Good : List String → Prop}
    {Cut : List Char → List Char → String → Prop} (whole : Good [clause])
    (cut : ∀ before after pat, clause.toList = before ++ after →
      ((∃ pieces, cutAt clause before after pat = some pieces ∧ Good pieces) ↔
        Cut before after pat))
    (cs : List Char) : ∀ before, clause.toList = before ++ cs →
    ((∃ pieces, scanFrom clause lower before cs = some pieces ∧ Good pieces) ↔
      ScanFits lower Cut before cs) := by
  -- induction on what is left to read; `before` is what the scan has passed over
  induction cs with
  | nil =>
    intro before _
    refine iff_of_true ⟨[clause], rfl, whole⟩ ?_
    intro mid c after hcs
    simp at hcs
  | cons c cs ih =>
    intro before h
    have hnext := ih (before ++ [c]) (by simpa using h)
    rw [scanFits_cons]
    by_cases hlooks : Looks before c
    · rw [scanFrom_looks clause hlooks]
      simp only [hlooks, forall_const]
      cases hdrop : dropBytes (byteLen before) lower with
      | none =>
        constructor
        · intro ⟨pieces, hp, _⟩
          cases hp
        · intro ⟨hfits, _⟩
          have hstarts := hfits.1
          rw [hdrop] at hstarts
          cases hstarts
      | some rest =>
        have hstarts : (dropBytes (byteLen before) lower).isSome := by rw [hdrop]; rfl
        cases hwait : waitAtByte lower before with
        | none =>
          dsimp only
          rw [hnext]
          constructor
          · intro hfits
            refine ⟨⟨hstarts, fun pat hpat => ?_⟩, fun _ => hfits⟩
            cases hwait.symm.trans hpat
          · exact fun hfits => hfits.2 rfl
        | some pat =>
          dsimp only
          rw [cut before (c :: cs) pat h]
          constructor
          · intro hcut
            refine ⟨⟨hstarts, fun pat' hpat' => ?_⟩, fun hnone => by cases hnone⟩
            obtain rfl := Option.some_inj.mp (hwait.symm.trans hpat')
            exact hcut
          · exact fun hfits => hfits.1.2 pat hwait
    · rw [scanFrom_blind clause hlooks, hnext]
      simp only [hlooks, false_implies, true_and, forall_const]

end Scan

end GpuiAgent
