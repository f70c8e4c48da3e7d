import GpuiAgent.Policy.WaitScan

namespace GpuiAgent

open Framework Framework.Quotes

def isGapChar (c : Char) : Bool := isWhitespace c || c = ','

/-- What is lost between two pieces of a clause: blanks and commas around at most an `and`. -/
def Gap (cs : List Char) : Prop :=
  ((cs.dropWhile isGapChar).rdropWhile isGapChar).map Char.toLower ∈ [[], "and".toList]

/-- A text is the pieces in order with gaps between them. -/
def Joined : List Char → List String → Prop
  | _, [] => False
  | cs, [piece] => cs = piece.toList
  | cs, piece :: pieces =>
    ∃ gap rest, cs = piece.toList ++ gap ++ rest ∧ Gap gap ∧ Joined rest pieces

def SplitsInto (clause : String) (pieces : List String) : Prop :=
  (∀ piece ∈ pieces, piece ≠ "") ∧ Joined clause.toList pieces

/-- No slice panics, and the text of the clause is kept. -/
def KeepsText (lex : Lexicon) (clause : String) : Prop :=
  ∃ pieces, splitWait lex clause = some pieces ∧ SplitsInto clause pieces

/-- The bytes that go with a pattern are whole characters of the clause and a gap; what they are
does not matter where nothing is left on one side. -/
def CutsCleanly (before after : List Char) (pat : String) : Prop :=
  ∃ cut tail, after = cut ++ tail ∧ byteLen cut = waitDrop pat ∧
    (Gap cut ∨ (∀ c ∈ before, isSeparator c) ∨ ∀ c ∈ tail, isWhitespace c)

/-- At every place of `cs` that the scan comes to, a character of the lowercased copy starts, and a
pattern there cuts the clause cleanly. -/
abbrev CleanFrom (lower : List Char) : List Char → List Char → Prop := ScanFits lower CutsCleanly

theorem splitsInto_whole {clause : String} (h : clause ≠ "") : SplitsInto clause [clause] :=
  ⟨fun piece hpiece => by rwa [List.mem_singleton.mp hpiece], rfl⟩

theorem isGapChar_of_isSeparator {c : Char} (h : isSeparator c = true) : isGapChar c = true := by
  simp only [isSeparator, Bool.or_eq_true, decide_eq_true_eq] at h
  rcases h with rfl | rfl <;> decide

/-- Two pieces keep the text exactly where what stands between them is a gap. -/
theorem splitsInto_pair_iff {clause : String} {head gap tail : List Char}
    (h : clause.toList = head ++ gap ++ tail) (hhead : head ≠ []) (htail : tail ≠ []) :
    SplitsInto clause [.ofList head, .ofList tail] ↔ Gap gap := by
  constructor
  · intro ⟨_, gap', rest, heq, hg, hrest⟩
    obtain rfl : rest = (String.ofList tail).toList := hrest
    rw [h, String.toList_ofList, String.toList_ofList] at heq
    exact List.append_cancel_left (List.append_cancel_right heq) ▸ hg
  · intro hg
    refine ⟨?_, _, _, ?_, hg, rfl⟩
    · intro piece hpiece
      rcases List.mem_pair.mp hpiece with rfl | rfl
      · simpa using hhead
      · simpa using htail
    · rw [h, String.toList_ofList, String.toList_ofList]

/-- The two pieces keep the text exactly where what is cut out is a gap. -/
theorem cutPieces_splitsInto_iff {clause : String} {before cut tail : List Char}
    (hne : clause ≠ "") (h : clause.toList = before ++ (cut ++ tail)) :
    SplitsInto clause (cutPieces clause before tail) ↔
      Gap cut ∨ (∀ c ∈ before, isSeparator c) ∨ ∀ c ∈ tail, isWhitespace c := by
  by_cases hwhole : (∀ c ∈ before, isSeparator c = true) ∨ ∀ c ∈ tail, isWhitespace c = true
  · rw [cutPieces_whole hwhole]
    exact iff_of_true (splitsInto_whole hne) (.inr hwhole)
  · rw [or_iff_left hwhole]
    rw [not_or] at hwhole
    rw [cutPieces_pair hwhole.1 hwhole.2]
    have hbefore : before = before.rdropWhile isSeparator ++ before.rtakeWhile isSeparator :=
      (List.rdropWhile_append_rtakeWhile ..).symm
    have htail : tail = tail.takeWhile isWhitespace ++ trimStart tail :=
      (List.takeWhile_append_dropWhile ..).symm
    have hgap : Gap (before.rtakeWhile isSeparator ++ cut ++ tail.takeWhile isWhitespace) ↔
        Gap cut := by
      unfold Gap
      rw [dropWhile_rdropWhile_append]
      · intro c hc
        exact isGapChar_of_isSeparator (List.mem_rtakeWhile_imp hc)
      · intro c hc
        rw [isGapChar, List.mem_takeWhile_imp hc]
        rfl
    have hclause : clause.toList = before.rdropWhile isSeparator ++
        (before.rtakeWhile isSeparator ++ cut ++ tail.takeWhile isWhitespace) ++
          trimStart tail := by
      rw [h]
      conv_lhs => rw [hbefore, htail]
      simp only [List.append_assoc]
    rw [← hgap]
    exact splitsInto_pair_iff hclause
      (fun hnil => hwhole.1 (List.rdropWhile_eq_nil_iff.mp hnil))
      fun hnil => hwhole.2 (List.dropWhile_eq_nil_iff.mp hnil)

theorem cutAt_splitsInto_iff {clause : String} {before after : List Char} (hne : clause ≠ "")
    (h : clause.toList = before ++ after) (pat : String) :
    (∃ pieces, cutAt clause before after pat = some pieces ∧ SplitsInto clause pieces) ↔
      CutsCleanly before after pat := by
  rw [cutAt_iff]
  refine exists_congr fun cut => exists_congr fun tail => and_congr_right fun hafter => ?_
  rw [cutPieces_splitsInto_iff hne (hafter ▸ h)]

/-- The pieces of a clause are its own text in order, exactly where the scan only comes to places
that are clean. -/
theorem splitWait_keepsText_iff (lex : Lexicon) (clause : String) :
    KeepsText lex clause ↔
      clause ≠ "" ∧ CleanFrom (lex.strLowercase clause).toList [] clause.toList := by
  by_cases hne : clause = ""
  · subst hne
    refine iff_of_false ?_ fun h => h.1 rfl
    intro ⟨pieces, hp, hpieces, _⟩
    obtain rfl : [""] = pieces := Option.some_inj.mp hp
    exact hpieces "" (List.mem_singleton_self "") rfl
  · rw [and_iff_right hne]
    exact scanFrom_good_iff (splitsInto_whole hne)
      (fun _ _ pat h => cutAt_splitsInto_iff hne h pat) clause.toList [] rfl

/-- The Kelvin sign is lowercased to a letter of one byte. -/
def kelvinLexicon : Lexicon := { Lexicon.ascii with
  strLowercase := fun s =>
    .ofList (s.toList.map fun c => if c = '\u212a' then 'k' else c.toLower) }

/-- Behind the Kelvin sign, the scan runs past the end of the lowercased copy, or it cuts a letter
out. -/
theorem kelvin_keepsNot : ¬ KeepsText kelvinLexicon "Set 300 \u212a now" ∧
    ¬ KeepsText kelvinLexicon "Set 300 \u212a and wait for Saved" := by
  constructor
  · have hpanics : splitWait kelvinLexicon "Set 300 \u212a now" = none := by decide +kernel
    intro ⟨pieces, hp, _⟩
    cases hpanics.symm.trans hp
  · have hcuts : splitWait kelvinLexicon "Set 300 \u212a and wait for Saved" =
        some ["Set 300 \u212a a", "d wait for Saved"] := by decide +kernel
    intro ⟨pieces, hp, _, hjoined⟩
    obtain rfl := Option.some_inj.mp (hcuts.symm.trans hp)
    obtain ⟨gap, rest, heq, hgap, rfl⟩ := hjoined
    have htext : "Set 300 \u212a and wait for Saved".toList =
        "Set 300 \u212a a".toList ++ "n".toList ++ "d wait for Saved".toList := by decide +kernel
    rw [htext] at heq
    have hn := List.append_cancel_left (List.append_cancel_right heq)
    rw [← hn] at hgap
    revert hgap
    unfold Gap
    decide +kernel

end GpuiAgent
