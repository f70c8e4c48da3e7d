import GpuiAgent.Framework.Quotes
import GpuiAgent.Recipe.Compile
import Mathlib.Algebra.Order.BigOperators.Group.List

namespace GpuiAgent

open Framework

section Texts

mutual
/-- The strings of a JSON value, in order; the keys of an object are not among them. -/
def Json.texts : Json → List String
  | .string s => [s]
  | .array xs => textsOfArray xs
  | .object fields => textsOfFields fields
  | .null | .bool _ | .number _ => []
def Json.textsOfArray : List Json → List String
  | [] => []
  | x :: xs => x.texts ++ textsOfArray xs
def Json.textsOfFields : List (String × Json) → List String
  | [] => []
  | (_, v) :: fields => v.texts ++ textsOfFields fields
end

def AssertSpec.texts (spec : AssertSpec) : List String :=
  [spec.target] ++ spec.name.toList ++ spec.value.toList ++ spec.role.toList

/-- The texts of an op in which a parameter may stand. -/
def Op.texts : Op → List String
  | .hello | .snapshot .. | .shutdown | .wait _ | .keybindings | .events .. | .revision => []
  | .waitUntil _ spec | .assert spec => spec.texts
  | .click target _ _ => [target]
  | .type target text _ _ => [target, text]
  | .setValue target value _ => [target, value]
  | .key target token _ _ => [target, token]
  | .keybinding binding chord _ _ _ => binding :: chord.toList
  | .invoke name args => name :: args.texts
  | .screenshot path _ target _ => path.toList ++ target.toList

mutual
theorem collectPlaceholdersInValue_eq : (v : Json) →
    collectPlaceholdersInValue v = v.texts.flatMap collectPlaceholders
  | .string s => by simp [collectPlaceholdersInValue, Json.texts]
  | .array xs => collectPlaceholdersInArray_eq xs
  | .object fields => collectPlaceholdersInFields_eq fields
  | .null => rfl
  | .bool _ => rfl
  | .number _ => rfl
theorem collectPlaceholdersInArray_eq : (xs : List Json) →
    collectPlaceholdersInArray xs = (Json.textsOfArray xs).flatMap collectPlaceholders
  | [] => rfl
  | x :: xs => by
    rw [collectPlaceholdersInArray, Json.textsOfArray, collectPlaceholdersInValue_eq x,
      collectPlaceholdersInArray_eq xs, List.flatMap_append]
theorem collectPlaceholdersInFields_eq : (fields : List (String × Json)) →
    collectPlaceholdersInFields fields = (Json.textsOfFields fields).flatMap collectPlaceholders
  | [] => rfl
  | (_, v) :: fields => by
    rw [collectPlaceholdersInFields, Json.textsOfFields, collectPlaceholdersInValue_eq v,
      collectPlaceholdersInFields_eq fields, List.flatMap_append]
end

theorem collectPlaceholdersInOption_eq (s : Option String) :
    collectPlaceholdersInOption s = s.toList.flatMap collectPlaceholders := by
  cases s with
  | none => rfl
  | some s => simp [collectPlaceholdersInOption]

/-- The collector visits the texts of an op, in their order. -/
theorem collectPlaceholdersInOp_eq (op : Op) :
    collectPlaceholdersInOp op = op.texts.flatMap collectPlaceholders := by
  have hspec (spec : AssertSpec) :
      spec.collectPlaceholders = spec.texts.flatMap collectPlaceholders := by
    simp [AssertSpec.collectPlaceholders, AssertSpec.texts, collectPlaceholdersInOption_eq]
  cases op with
  | waitUntil timeoutMs spec => exact hspec spec
  | assert spec => exact hspec spec
  | _ => simp [collectPlaceholdersInOp, Op.texts, collectPlaceholdersInOption_eq,
      collectPlaceholdersInValue_eq]

variable (f : String → String)

mutual
theorem Json.texts_mapText : (v : Json) → (v.mapText f).texts = v.texts.map f
  | .string _ => rfl
  | .array xs => textsOfArray_mapTexts xs
  | .object fields => textsOfFields_mapTextFields fields
  | .null => rfl
  | .bool _ => rfl
  | .number _ => rfl
theorem Json.textsOfArray_mapTexts : (xs : List Json) →
    textsOfArray (mapTexts f xs) = (textsOfArray xs).map f
  | [] => rfl
  | x :: xs => by
    rw [mapTexts, textsOfArray, textsOfArray, texts_mapText x, textsOfArray_mapTexts xs,
      List.map_append]
theorem Json.textsOfFields_mapTextFields : (fields : List (String × Json)) →
    textsOfFields (mapTextFields f fields) = (textsOfFields fields).map f
  | [] => rfl
  | (_, v) :: fields => by
    rw [mapTextFields, textsOfFields, textsOfFields, texts_mapText v,
      textsOfFields_mapTextFields fields, List.map_append]
end

/-- Filling an op fills the same texts. -/
theorem Op.texts_mapText (op : Op) : (op.mapText f).texts = op.texts.map f := by
  have hoption (s : Option String) : (s.map f).toList = s.toList.map f := by
    cases s <;> rfl
  have hspec (spec : AssertSpec) : (spec.mapText f).texts = spec.texts.map f := by
    simp [AssertSpec.texts, AssertSpec.mapText, hoption]
  cases op with
  | waitUntil timeoutMs spec => exact hspec spec
  | assert spec => exact hspec spec
  | _ => simp [mapText, texts, hoption, Json.texts_mapText]

end Texts

section Pieces

/-- A piece of a text: a character that stays, or a placeholder in one of its two spellings. -/
inductive Piece where
  | char (c : Char)
  | bare (name : String)
  | braced (name : String)

namespace Piece

/-- What stands in the text. -/
def source : Piece → List Char
  | char c => [c]
  | bare name => '$' :: name.toList
  | braced name => '$' :: '{' :: (name.toList ++ ['}'])

def segment : Piece → Segment
  | char c => .char c
  | bare name | braced name => .param name

def name? (piece : Piece) : Option String := piece.segment.paramName

/-- What stands in its place. -/
def fill (value : String → String) : Piece → List Char
  | char c => [c]
  | bare name | braced name => (value name).toList

end Piece

/-- Behind a dollar sign: the text begins with a name, or with a name in braces. -/
def BeginsPlaceholder (after : List Char) : Prop :=
  ∃ name rest, isIdent name = true ∧ (after = name ++ rest ∨ after = '{' :: (name ++ '}' :: rest))

/-- The piece may stand before this text: a placeholder has a name, which ends where no character of
a name follows or at its brace, and a dollar sign that stays begins no placeholder. -/
def Piece.Fits (after : List Char) : Piece → Prop
  | char c => c = '$' → ¬ BeginsPlaceholder after
  | bare name => isIdent name.toList = true ∧ ∀ c ∈ after.head?, identChar c = false
  | braced name => isIdent name.toList = true

def WellCut : List Piece → Prop
  | [] => True
  | piece :: pieces => piece.Fits (pieces.flatMap Piece.source) ∧ WellCut pieces

/-- The text is cut into these pieces at its placeholders. -/
structure CutAtPlaceholders (text : List Char) (pieces : List Piece) : Prop where
  source : text = pieces.flatMap Piece.source
  wellCut : WellCut pieces

theorem identChar_of_isIdent {name : List Char} (h : isIdent name = true) :
    ∀ c ∈ name, identChar c = true := by
  cases name with
  | nil => exact List.forall_mem_nil _
  | cons c cs =>
    rw [isIdent, Bool.and_eq_true, List.all_eq_true] at h
    obtain ⟨hstart, hrest⟩ := h
    refine List.forall_mem_cons.mpr ⟨?_, hrest⟩
    rw [identStart, Bool.or_eq_true] at hstart
    obtain hstart | hstart := hstart
    · simp [identChar, Char.isAlphanum, hstart]
    · simp [identChar, hstart]

/-- A brace is no character of a name. -/
theorem notMem_of_isIdent {name : List Char} (h : isIdent name = true) : '}' ∉ name ∧ '{' ∉ name :=
  ⟨fun hmem => absurd (identChar_of_isIdent h _ hmem) (by decide),
    fun hmem => absurd (identChar_of_isIdent h _ hmem) (by decide)⟩

/-- A name is cut at the first character that belongs to none. -/
theorem takeWhile_identChar {name rest : List Char} (h : isIdent name = true)
    (hend : ∀ c ∈ rest.head?, identChar c = false) :
    (name ++ rest).takeWhile identChar = name ∧ (name ++ rest).dropWhile identChar = rest := by
  have hname := identChar_of_isIdent h
  rw [List.takeWhile_append_of_pos hname, List.dropWhile_append_of_pos hname]
  cases rest with
  | nil => exact ⟨List.append_nil _, rfl⟩
  | cons c rest =>
    have hc : identChar c = false := hend c rfl
    simp [hc]

/-- A name in braces is cut at the closing one. -/
theorem takeWhile_brace {name : List Char} (h : isIdent name = true) (rest : List Char) :
    (name ++ '}' :: rest).takeWhile (· ≠ '}') = name := by
  have hbrace := (notMem_of_isIdent h).1
  rw [List.takeWhile_append_of_pos fun c hc => by simpa using ne_of_mem_of_not_mem hc hbrace]
  simp

theorem parsePlaceholder_eq_some {cs : List Char} {name : String} {used : Nat}
    (h : parsePlaceholder cs = some (name, used)) :
    isIdent name.toList = true ∧
      (cs = name.toList ++ cs.drop used ∧ (∀ c ∈ (cs.drop used).head?, identChar c = false) ∨
        cs = '{' :: (name.toList ++ '}' :: cs.drop used)) := by
  unfold parsePlaceholder at h
  split at h
  next => cases h
  next cs =>
    dsimp only at h
    split_ifs at h with hclosed hident
    obtain ⟨rest, hrest⟩ := Quotes.eq_takeWhile_append hclosed
    simp only [Option.some.injEq, Prod.mk.injEq] at h
    obtain ⟨rfl, rfl⟩ := h
    rw [String.toList_ofList]
    refine ⟨hident, .inr ?_⟩
    have hdrop : cs.drop ((cs.takeWhile (· ≠ '}')).length + 1) = rest := by
      nth_rewrite 2 [hrest]
      simp
    rw [List.drop_succ_cons, hdrop, ← hrest]
  next =>
    dsimp only at h
    split_ifs at h with hempty hident
    simp only [Option.some.injEq, Prod.mk.injEq] at h
    obtain ⟨rfl, rfl⟩ := h
    rw [String.toList_ofList]
    have hdrop : (cs.takeWhile identChar ++ cs.dropWhile identChar).drop
        (cs.takeWhile identChar).length = cs.dropWhile identChar := List.drop_left
    rw [List.takeWhile_append_dropWhile] at hdrop
    rw [hdrop, List.takeWhile_append_dropWhile]
    refine ⟨hident, .inl ⟨rfl, fun c hc => ?_⟩⟩
    have hhead := List.head?_dropWhile_not identChar cs
    rwa [Option.mem_def.mp hc] at hhead

/-- Where a name begins, in braces or not, the scanner finds a placeholder. -/
theorem parsePlaceholder_eq_none {cs : List Char} (h : parsePlaceholder cs = none) :
    ¬ BeginsPlaceholder cs := by
  rintro ⟨name, rest, hident, rfl | rfl⟩
  · cases name with
    | nil => cases hident
    | cons c name =>
      have hname := identChar_of_isIdent hident
      have hc := hname c List.mem_cons_self
      unfold parsePlaceholder at h
      split at h
      next heq => cases heq
      next heq =>
        obtain ⟨rfl, -⟩ := List.cons.inj heq
        cases hc
      next =>
        dsimp only at h
        -- the longest run of name characters begins as the name does
        have hrun : isIdent ((c :: name ++ rest).takeWhile identChar) = true := by
          rw [List.takeWhile_append_of_pos hname, List.cons_append]
          rw [isIdent, Bool.and_eq_true, List.all_eq_true] at hident ⊢
          refine ⟨hident.1, List.forall_mem_append.mpr ⟨hident.2, fun d hd => ?_⟩⟩
          exact List.mem_takeWhile_imp hd
        rw [List.cons_append, List.takeWhile_cons_of_pos hc, List.isEmpty_cons,
          if_neg Bool.false_ne_true, ← List.takeWhile_cons_of_pos hc, ← List.cons_append,
          if_pos hrun] at h
        cases h
  · change (if _ then _ else _) = none at h
    rw [takeWhile_brace hident, if_neg (by simp), if_pos hident] at h
    cases h

theorem exists_pieces (cs : List Char) : ∀ skip, ∃ pieces : List Piece,
    segmentsFrom skip cs = pieces.map Piece.segment ∧
      CutAtPlaceholders (cs.drop skip) pieces := by
  induction cs with
  | nil => exact fun skip => ⟨[], rfl, by simp, trivial⟩
  | cons c cs ih =>
    intro skip
    cases skip with
    | succ skip => exact ih skip
    | zero =>
      unfold segmentsFrom
      dsimp only
      cases hfound : if c = '$' then parsePlaceholder cs else none with
      | none =>
        obtain ⟨pieces, hsegments, hsource, hcut⟩ := ih 0
        rw [List.drop_zero] at hsource
        refine ⟨.char c :: pieces, by rw [hsegments]; rfl, ?_, fun hdollar => ?_, hcut⟩
        · rw [List.drop_zero, List.flatMap_cons, ← hsource]
          rfl
        · rw [if_pos hdollar] at hfound
          exact hsource ▸ parsePlaceholder_eq_none hfound
      | some found =>
        obtain ⟨name, used⟩ := found
        obtain ⟨pieces, hsegments, hsource, hcut⟩ := ih used
        split_ifs at hfound with hdollar
        obtain ⟨hident, ⟨hcs, hend⟩ | hcs⟩ := parsePlaceholder_eq_some hfound
        · refine ⟨.bare name :: pieces, by dsimp only; rw [hsegments]; rfl, ?_,
            ⟨hident, hsource ▸ hend⟩, hcut⟩
          rw [List.flatMap_cons, ← hsource, Piece.source, List.drop_zero, hdollar, List.cons_append,
            ← hcs]
        · refine ⟨.braced name :: pieces, by dsimp only; rw [hsegments]; rfl, ?_, hident, hcut⟩
          rw [List.flatMap_cons, ← hsource, Piece.source, List.drop_zero, hdollar]
          simpa using hcs

/-- A name in braces does not begin as a bare name does. -/
theorem bare_ne_braced {name name' : String} {rest rest' : List Char}
    (h : isIdent name.toList = true) :
    Piece.source (.bare name) ++ rest ≠ Piece.source (.braced name') ++ rest' := by
  intro heq
  rw [Piece.source, Piece.source, List.cons_append, List.cons_append, List.cons_inj_right] at heq
  cases hname : name.toList with
  | nil =>
    rw [hname] at h
    cases h
  | cons c cs =>
    rw [hname] at heq
    obtain ⟨rfl, -⟩ := List.cons.inj heq
    exact (notMem_of_isIdent h).2 (hname ▸ List.mem_cons_self)

/-- A dollar sign that stays does not begin a placeholder. -/
theorem Piece.begins_of_eq {c : Char} {piece : Piece} {after rest : List Char}
    (fits : piece.Fits rest) (placeholder : piece.name?.isSome)
    (heq : c :: after = piece.source ++ rest) : c = '$' ∧ BeginsPlaceholder after := by
  cases piece with
  | char c => cases placeholder
  | bare name =>
    obtain ⟨rfl, rfl⟩ := List.cons.inj heq
    exact ⟨rfl, name.toList, rest, fits.1, .inl rfl⟩
  | braced name =>
    obtain ⟨rfl, rfl⟩ := List.cons.inj heq
    exact ⟨rfl, name.toList, rest, fits, .inr (by simp)⟩

/-- Two pieces that fit the same text are one. -/
theorem Piece.eq_of_fits {piece piece' : Piece} {rest rest' : List Char} (h : piece.Fits rest)
    (h' : piece'.Fits rest') (heq : piece.source ++ rest = piece'.source ++ rest') :
    piece = piece' ∧ rest = rest' := by
  cases piece with
  | char c =>
    cases piece' with
    | char c' =>
      obtain ⟨rfl, hrest⟩ := List.cons.inj heq
      exact ⟨rfl, hrest⟩
    | bare name =>
      obtain ⟨hdollar, begins⟩ := begins_of_eq h' rfl heq
      exact absurd begins (h hdollar)
    | braced name =>
      obtain ⟨hdollar, begins⟩ := begins_of_eq h' rfl heq
      exact absurd begins (h hdollar)
  | bare name =>
    cases piece' with
    | char c =>
      obtain ⟨hdollar, begins⟩ := begins_of_eq h rfl heq.symm
      exact absurd begins (h' hdollar)
    | bare name' =>
      have heq : name.toList ++ rest = name'.toList ++ rest' := (List.cons.inj heq).2
      obtain ⟨htake, hdrop⟩ := takeWhile_identChar h.1 h.2
      obtain ⟨htake', hdrop'⟩ := takeWhile_identChar h'.1 h'.2
      rw [heq] at htake hdrop
      rw [String.toList_injective (htake.symm.trans htake')]
      exact ⟨rfl, hdrop.symm.trans hdrop'⟩
    | braced name' => exact absurd heq (bare_ne_braced h.1)
  | braced name =>
    cases piece' with
    | char c =>
      obtain ⟨hdollar, begins⟩ := begins_of_eq h rfl heq.symm
      exact absurd begins (h' hdollar)
    | bare name' => exact absurd heq.symm (bare_ne_braced h'.1)
    | braced name' =>
      have heq : name.toList ++ '}' :: rest = name'.toList ++ '}' :: rest' := by
        simpa [source] using heq
      have hname : name.toList = name'.toList := by
        rw [← takeWhile_brace h rest, heq, takeWhile_brace h' rest']
      rw [hname, List.append_cancel_left_eq] at heq
      rw [String.toList_injective hname]
      exact ⟨rfl, (List.cons.inj heq).2⟩

/-- There is one way to cut a text at its placeholders. -/
theorem CutAtPlaceholders.unique {text : List Char} {pieces pieces' : List Piece}
    (h : CutAtPlaceholders text pieces) (h' : CutAtPlaceholders text pieces') :
    pieces' = pieces := by
  induction pieces generalizing text pieces' with
  | nil =>
    cases pieces' with
    | nil => rfl
    | cons piece' pieces' =>
      have heq := h'.source.symm.trans h.source
      cases piece' <;> cases heq
  | cons piece pieces ih =>
    cases pieces' with
    | nil =>
      have heq := h.source.symm.trans h'.source
      cases piece <;> cases heq
    | cons piece' pieces' =>
      obtain ⟨hfits, hcut⟩ := h.wellCut
      obtain ⟨hfits', hcut'⟩ := h'.wellCut
      obtain ⟨rfl, hrest⟩ := Piece.eq_of_fits hfits hfits' (h.source.symm.trans h'.source)
      rw [ih ⟨rfl, hcut⟩ ⟨hrest, hcut'⟩]

/-- A text falls into pieces: what is between the placeholders stays as it is, and a value is put in
as it is, without a second look. -/
theorem fillString_pieces (s : String) : ∃ pieces : List Piece,
    CutAtPlaceholders s.toList pieces ∧ collectPlaceholders s = pieces.filterMap Piece.name? ∧
      ∀ value, (fillString value s).toList = pieces.flatMap (Piece.fill value) := by
  obtain ⟨pieces, hsegments, hcut⟩ := exists_pieces s.toList 0
  have hfill (value : String → String) (piece : Piece) :
      piece.segment.fill value = piece.fill value := by cases piece <;> rfl
  refine ⟨pieces, hcut, ?_, fun value => ?_⟩
  · rw [collectPlaceholders, collectPlaceholdersFrom_eq, hsegments, List.filterMap_map]
    rfl
  · rw [fillString, String.toList_ofList, hsegments, List.flatMap_map]
    exact congrArg (pieces.flatMap ·) (funext (hfill value))

end Pieces

section Replaced

variable {set set' : Params}

theorem substituteFrom_congr (cs : List Char) : ∀ skip,
    (∀ name ∈ collectPlaceholdersFrom skip cs, set[name]? = set'[name]?) →
      substituteFrom set skip cs = substituteFrom set' skip cs := by
  induction cs with
  | nil => exact fun skip _ => rfl
  | cons c cs ih =>
    intro skip h
    unfold collectPlaceholdersFrom at h
    unfold substituteFrom
    cases skip with
    | succ skip => exact ih skip h
    | zero =>
      dsimp only at h ⊢
      cases hfound : if c = '$' then parsePlaceholder cs else none with
      | none =>
        rw [hfound] at h
        dsimp only
        rw [ih 0 h]
      | some found =>
        obtain ⟨name, used⟩ := found
        rw [hfound] at h
        rw [List.forall_mem_cons] at h
        dsimp only
        rw [h.1, ih used h.2]

theorem substituteString_congr {s : String}
    (h : ∀ name ∈ collectPlaceholders s, set[name]? = set'[name]?) :
    substituteString s set = substituteString s set' := by
  rw [substituteString, substituteString, substituteFrom_congr s.toList 0 h]

theorem substituteOption_congr {s : Option String}
    (h : ∀ name ∈ collectPlaceholdersInOption s, set[name]? = set'[name]?) :
    substituteOption s set = substituteOption s set' := by
  cases s with
  | none => rfl
  | some s => rw [substituteOption, substituteOption, substituteString_congr h]

mutual
theorem substituteValue_congr : (v : Json) →
    (∀ name ∈ collectPlaceholdersInValue v, set[name]? = set'[name]?) →
    substituteValue set v = substituteValue set' v
  | .string s, h => by rw [substituteValue, substituteValue, substituteString_congr h]
  | .array xs, h => by rw [substituteValue, substituteValue, substituteArray_congr xs h]
  | .object fields, h => by rw [substituteValue, substituteValue, substituteFields_congr fields h]
  | .null, _ => rfl
  | .bool _, _ => rfl
  | .number _, _ => rfl
theorem substituteArray_congr : (xs : List Json) →
    (∀ name ∈ collectPlaceholdersInArray xs, set[name]? = set'[name]?) →
    substituteArray set xs = substituteArray set' xs
  | [], _ => rfl
  | x :: xs, h => by
    obtain ⟨hx, hxs⟩ := List.forall_mem_append.mp h
    rw [substituteArray, substituteArray, substituteValue_congr x hx, substituteArray_congr xs hxs]
theorem substituteFields_congr : (fields : List (String × Json)) →
    (∀ name ∈ collectPlaceholdersInFields fields, set[name]? = set'[name]?) →
    substituteFields set fields = substituteFields set' fields
  | [], _ => rfl
  | (k, v) :: fields, h => by
    obtain ⟨hv, hfields⟩ := List.forall_mem_append.mp h
    rw [substituteFields, substituteFields, substituteValue_congr v hv,
      substituteFields_congr fields hfields]
end

theorem AssertSpec.substitute_congr {spec : AssertSpec}
    (h : ∀ name ∈ spec.collectPlaceholders, set[name]? = set'[name]?) :
    spec.substitute set = spec.substitute set' := by
  obtain ⟨h, hrole⟩ := List.forall_mem_append.mp h
  obtain ⟨h, hvalue⟩ := List.forall_mem_append.mp h
  obtain ⟨htarget, hname⟩ := List.forall_mem_append.mp h
  rw [AssertSpec.substitute, AssertSpec.substitute, substituteString_congr htarget,
    substituteOption_congr hname, substituteOption_congr hvalue, substituteOption_congr hrole]

/-- The substituter looks at the values of the collected names only. -/
theorem substituteOp_congr {op : Op}
    (h : ∀ name ∈ collectPlaceholdersInOp op, set[name]? = set'[name]?) :
    substituteOp set op = substituteOp set' op := by
  cases op with
  | waitUntil timeoutMs spec => rw [substituteOp, substituteOp, AssertSpec.substitute_congr h]
  | assert spec => rw [substituteOp, substituteOp, AssertSpec.substitute_congr h]
  | click target delivery fingerprint =>
    rw [substituteOp, substituteOp, substituteString_congr h]
  | type target text delivery fingerprint =>
    obtain ⟨htarget, htext⟩ := List.forall_mem_append.mp h
    rw [substituteOp, substituteOp, substituteString_congr htarget, substituteString_congr htext]
  | setValue target text fingerprint =>
    obtain ⟨htarget, htext⟩ := List.forall_mem_append.mp h
    rw [substituteOp, substituteOp, substituteString_congr htarget, substituteString_congr htext]
  | key target token delivery fingerprint =>
    obtain ⟨htarget, htoken⟩ := List.forall_mem_append.mp h
    rw [substituteOp, substituteOp, substituteString_congr htarget, substituteString_congr htoken]
  | keybinding binding chord scope confirm activate =>
    obtain ⟨hbinding, hchord⟩ := List.forall_mem_append.mp h
    rw [substituteOp, substituteOp, substituteString_congr hbinding, substituteOption_congr hchord]
  | invoke name args =>
    obtain ⟨hname, hargs⟩ := List.forall_mem_append.mp h
    rw [substituteOp, substituteOp, substituteString_congr hname, substituteValue_congr args hargs]
  | screenshot path mode target maxHeightPx =>
    obtain ⟨hpath, htarget⟩ := List.forall_mem_append.mp h
    rw [substituteOp, substituteOp, substituteOption_congr hpath, substituteOption_congr htarget]
  | hello => rfl
  | snapshot since format fingerprints => rfl
  | revision => rfl
  | events since limit => rfl
  | keybindings => rfl
  | wait timeoutMs => rfl
  | shutdown => rfl

/-- The value of a parameter can be seen in the op that is made: two assignments that differ in it
alone make different ops. -/
def Replaced (op : Op) (name : String) : Prop :=
  ∃ (set set' : Params) (filled filled' : Op), (∀ other ≠ name, set[other]? = set'[other]?) ∧
    substituteOp set op = .ok filled ∧ substituteOp set' op = .ok filled' ∧ filled ≠ filled'

/-- Every name has an empty value. -/
theorem exists_empty_params (names : List String) :
    ∃ set : Params, set.Covers names ∧ ∀ name, set.value name = "" := by
  induction names with
  | nil => exact ⟨∅, fun name h => absurd h List.not_mem_nil, fun name => by simp [Params.value]⟩
  | cons first names ih =>
    obtain ⟨set, hcovers, hvalue⟩ := ih
    refine ⟨set.insert first "", ?_, fun name => ?_⟩
    · intro name hname
      rw [Std.TreeMap.getElem?_insert]
      split_ifs with h
      · rfl
      · obtain rfl | hname := List.mem_cons.mp hname
        · simp at h
        · exact hcovers name hname
    · have h := hvalue name
      rw [Params.value] at h ⊢
      rw [Std.TreeMap.getElem?_insert]
      split_ifs with heq
      · rfl
      · exact h

/-- A name in a text can be seen in the filled text. -/
theorem fillString_ne {s name : String} {value value' : String → String}
    (h : name ∈ collectPlaceholders s) (hempty : ∀ name, value name = "")
    (hne : value' name ≠ "") : fillString value s ≠ fillString value' s := by
  obtain ⟨pieces, -, hnames, hfill⟩ := fillString_pieces s
  rw [hnames, List.mem_filterMap] at h
  obtain ⟨piece, hpiece, hname⟩ := h
  have hle (piece : Piece) : (piece.fill value).length ≤ (piece.fill value').length := by
    cases piece <;> simp [Piece.fill, hempty]
  have hlt : (piece.fill value).length < (piece.fill value').length := by
    have hpos : 0 < (value' name).toList.length := by
      rw [List.length_pos_iff]
      exact fun hnil => hne (String.toList_eq_nil_iff.mp hnil)
    cases piece with
    | char c => cases hname
    | bare other =>
      obtain rfl : other = name := Option.some_inj.mp hname
      simpa [Piece.fill, hempty] using hpos
    | braced other =>
      obtain rfl : other = name := Option.some_inj.mp hname
      simpa [Piece.fill, hempty] using hpos
  intro heq
  have hlen := congrArg (fun s => s.toList.length) heq
  simp only [hfill, List.length_flatMap] at hlen
  exact absurd hlen (List.sum_lt_sum _ _ (fun piece _ => hle piece) ⟨piece, hpiece, hlt⟩).ne

/-- The names that the collector finds in an op are exactly those that the substituter replaces. -/
theorem mem_collectPlaceholdersInOp_iff (op : Op) (name : String) :
    name ∈ collectPlaceholdersInOp op ↔ Replaced op name := by
  constructor
  · intro h
    obtain ⟨set, hcovers, hempty⟩ := exists_empty_params (collectPlaceholdersInOp op)
    obtain ⟨set', hset'⟩ : ∃ set' : Params, ∀ other : String,
        set'[other]? = if name = other then some "x" else set[other]? := by
      refine ⟨set.insert name "x", fun other => ?_⟩
      rw [Std.TreeMap.getElem?_insert]
      simp only [Std.LawfulEqCmp.compare_eq_iff_eq]
    have hcovers' : set'.Covers (collectPlaceholdersInOp op) := by
      intro other hother
      rw [hset']
      split_ifs
      · rfl
      · exact hcovers other hother
    refine ⟨set, set', _, _, ?_, substituteOp_ok hcovers, substituteOp_ok hcovers', ?_⟩
    · intro other hother
      rw [hset', if_neg (Ne.symm hother)]
    · intro heq
      have htexts := congrArg Op.texts heq
      rw [Op.texts_mapText, Op.texts_mapText, List.map_inj_left] at htexts
      rw [collectPlaceholdersInOp_eq, List.mem_flatMap] at h
      obtain ⟨s, hs, hname⟩ := h
      refine fillString_ne hname hempty ?_ (htexts s hs)
      rw [Params.value, hset', if_pos rfl]
      decide
  · rintro ⟨set, set', filled, filled', hagree, hset, hset', hne⟩
    by_contra hno
    have hcongr : substituteOp set op = substituteOp set' op :=
      substituteOp_congr fun other hother => hagree other fun heq => hno (heq ▸ hother)
    exact hne (Except.ok.inj (hset.symm.trans (hcongr.trans hset')))

end Replaced

/-- Binding the parameters of a valid recipe succeeds, reads every text once and leaves what is not
a placeholder, replaces exactly the names that are checked to be declared, and does nothing where
there are no parameters. -/
theorem applyParams_exact :
    (∀ (recipe : Recipe) (registry : Registry) (set : Params),
      validateRecipe recipe registry = .ok () → set.Covers recipe.params →
        applyParams recipe set = .ok (recipe.bind set)) ∧
    (∀ s : String, ∃ pieces : List Piece,
      (CutAtPlaceholders s.toList pieces ∧
        ∀ pieces', CutAtPlaceholders s.toList pieces' → pieces' = pieces) ∧
      collectPlaceholders s = pieces.filterMap Piece.name? ∧
      ∀ set : Params, set.Covers (collectPlaceholders s) →
        substituteString s set = .ok (fillString set.value s) ∧
        (fillString set.value s).toList = pieces.flatMap (Piece.fill set.value)) ∧
    (∀ (op : Op) (name : String), name ∈ collectPlaceholdersInOp op ↔ Replaced op name) ∧
    (∀ (recipe : Recipe) (registry : Registry) (set : Params),
      validateRecipe recipe registry = .ok () → recipe.params = [] →
        boundRecipe recipe set = .ok recipe ∧ applyParams recipe set = .ok recipe) := by
  refine ⟨?_, ?_, mem_collectPlaceholdersInOp_iff, ?_⟩
  · intro recipe registry set hvalid hcovers
    exact applyParams_ok (validateRecipe_eq_ok.mp hvalid) hcovers
  · intro s
    obtain ⟨pieces, hcut, hnames, hfill⟩ := fillString_pieces s
    exact ⟨pieces, ⟨hcut, fun pieces' => hcut.unique⟩, hnames, fun set hcovers =>
      ⟨substituteString_ok hcovers, hfill set.value⟩⟩
  · intro recipe registry set hvalid hparams
    have valid := validateRecipe_eq_ok.mp hvalid
    have hcovers : set.Covers recipe.params := by
      rw [hparams]
      exact fun name hname => absurd hname List.not_mem_nil
    have happly := applyParams_ok valid hcovers
    rw [← Recipe.bind, bind_of_no_params valid hparams] at happly
    exact ⟨by simp [boundRecipe, hparams], happly⟩

/-- A value that looks like a placeholder is not expanded. -/
theorem applyParams_exact_click :
    let recipe : Recipe := { name := "r", params := ["id"],
                             steps := [{ id := "s1", op := .click "row-$id" .semantic none }] }
    let set : Params := (∅ : Params).insert "id" "7$id"
    applyParams recipe set = .ok (recipe.bind set) ∧
      (recipe.bind set).steps.map RecipeStep.op = [.click "row-7$id" .semantic none] := by
  intro recipe set
  have hcovers : set.Covers recipe.params := by
    intro name hname
    obtain rfl := List.mem_singleton.mp hname
    decide +kernel
  exact ⟨applyParams_exact.1 recipe .new set (by decide +kernel) hcovers, by decide +kernel⟩

end GpuiAgent
