import Mathlib.Data.List.DropRight
import Mathlib.Data.List.Infix
import Mathlib.Data.String.Basic

namespace GpuiAgent.Framework

/-- The Unicode `White_Space` property. -/
def isWhitespace (c : Char) : Bool :=
  let n := c.toNat
  (9 ≤ n && n ≤ 13) || n = 0x20 || n = 0x85 || n = 0xa0 || n = 0x1680 ||
    (0x2000 ≤ n && n ≤ 0x200a) || n = 0x2028 || n = 0x2029 || n = 0x202f || n = 0x205f || n = 0x3000

/-- The Unicode general category `Cc`. -/
def isControl (c : Char) : Bool := c.toNat < 0x20 || (0x7f ≤ c.toNat && c.toNat ≤ 0x9f)

def trim (s : String) : String :=
  .ofList (((s.toList.dropWhile isWhitespace).reverse.dropWhile isWhitespace).reverse)

theorem trim_eq (s : String) :
    trim s = .ofList ((s.toList.dropWhile isWhitespace).rdropWhile isWhitespace) := rfl

@[simp] theorem trim_trim (s : String) : trim (trim s) = trim s := by
  rw [trim_eq (trim s), trim_eq, String.toList_ofList]
  congr 1
  have hidem := List.rdropWhile_idempotent isWhitespace (s.toList.dropWhile isWhitespace)
  have hpre := List.rdropWhile_prefix isWhitespace (s.toList.dropWhile isWhitespace)
  generalize (s.toList.dropWhile isWhitespace).rdropWhile isWhitespace = kept at hidem hpre ⊢
  have hhead : kept.dropWhile isWhitespace = kept := by
    cases kept with
    | nil => rfl
    | cons c kept =>
      obtain ⟨rest, hrest⟩ := hpre
      have hc := List.dropWhile_idempotent isWhitespace s.toList
      rw [← hrest, List.cons_append, List.dropWhile_cons] at hc
      split_ifs at hc with hw
      · have hlen := congrArg List.length hc
        have hle := (List.dropWhile_sublist isWhitespace (l := kept ++ rest)).length_le
        rw [List.length_cons] at hlen
        omega
      · rw [List.dropWhile_cons_of_neg (by simpa using hw)]
  rw [hhead]
  exact hidem

theorem trim_eq_self {s : String} (h : ∀ c ∈ s.toList, isWhitespace c = false) : trim s = s := by
  have hkeep : ∀ cs : List Char, (∀ c ∈ cs, isWhitespace c = false) →
      cs.dropWhile isWhitespace = cs := by
    intro cs hcs
    cases cs with
    | nil => rfl
    | cons c cs => rw [List.dropWhile_cons, hcs c List.mem_cons_self, if_neg Bool.false_ne_true]
  rw [trim, hkeep s.toList h, hkeep _ fun c hc => h c (List.mem_reverse.mp hc), List.reverse_reverse,
    String.ofList_toList]

/-- What a text loses by trimming. -/
theorem trim_split (s : String) : ∃ pre post, s.toList = pre ++ (trim s).toList ++ post ∧
    (∀ c ∈ pre, isWhitespace c = true) ∧ ∀ c ∈ post, isWhitespace c = true := by
  refine ⟨s.toList.takeWhile isWhitespace, (s.toList.dropWhile isWhitespace).rtakeWhile isWhitespace,
    ?_, fun c => List.mem_takeWhile_imp, fun c => List.mem_rtakeWhile_imp⟩
  rw [trim_eq, String.toList_ofList, List.append_assoc, List.rdropWhile_append_rtakeWhile,
    List.takeWhile_append_dropWhile]

/-- What is trimmed off both ends anyway makes no difference around a text. -/
theorem dropWhile_rdropWhile_append {α : Type*} {p : α → Bool} {before after : List α}
    (hbefore : ∀ a ∈ before, p a = true) (hafter : ∀ a ∈ after, p a = true) (cs : List α) :
    ((before ++ cs ++ after).dropWhile p).rdropWhile p = (cs.dropWhile p).rdropWhile p := by
  have hkeep : ∀ xs : List α, (xs ++ after).rdropWhile p = xs.rdropWhile p := by
    intro xs
    rw [List.rdropWhile, List.reverse_append, List.dropWhile_append_of_pos, ← List.rdropWhile]
    exact fun a ha => hafter a (List.mem_reverse.mp ha)
  rw [List.append_assoc, List.dropWhile_append_of_pos hbefore]
  induction cs with
  | nil =>
    rw [List.nil_append, List.dropWhile_eq_nil_iff.mpr hafter]
    rfl
  | cons c cs ih =>
    rw [List.cons_append, List.dropWhile_cons, List.dropWhile_cons]
    split_ifs with hc
    · exact ih
    · exact hkeep (c :: cs)

def toAsciiLowercase (s : String) : String := .ofList (s.toList.map Char.toLower)

def startsWith (s pre : String) : Bool := pre.toList.isPrefixOf s.toList

theorem startsWith_append (pre s : String) : startsWith (pre ++ s) pre = true := by
  simp [startsWith, String.toList_append]

theorem startsWith_head {s : String} {c d : Char} {rest : List Char} (hs : s.toList = c :: rest)
    (hne : c ≠ d) : startsWith s (.singleton d) = false := by
  rw [startsWith, hs, String.toList_singleton]
  simp [List.isPrefixOf, Ne.symm hne]

/-- A prefix of a concatenation is comparable with the first part. -/
theorem startsWith_append_cases {s rest pre : String} (h : startsWith (s ++ rest) pre = true) :
    startsWith s pre = true ∨ startsWith pre s = true := by
  simp only [startsWith, String.toList_append, List.isPrefixOf_iff_prefix] at h ⊢
  exact List.prefix_or_prefix_of_prefix h (List.prefix_append _ _)

def endsWith (s suf : String) : Bool := suf.toList.isSuffixOf s.toList

theorem endsWith_iff {s suf : String} : endsWith s suf = true ↔ ∃ stem, s = stem ++ suf := by
  rw [endsWith, List.isSuffixOf_iff_suffix]
  constructor
  · rintro ⟨stem, h⟩
    refine ⟨.ofList stem, String.ext ?_⟩
    rw [String.toList_append, String.toList_ofList, h]
  · rintro ⟨stem, rfl⟩
    rw [String.toList_append]
    exact List.suffix_append _ _

def stripPrefix (s pre : String) : Option String :=
  if startsWith s pre then some (.ofList (s.toList.drop pre.toList.length)) else none

theorem stripPrefix_append (pre s : String) : stripPrefix (pre ++ s) pre = some s := by
  rw [stripPrefix, startsWith_append, if_pos rfl, String.toList_append, List.drop_left,
    String.ofList_toList]

def contains (s pat : String) : Bool := s.toList.tails.any fun t => pat.toList.isPrefixOf t

theorem contains_iff {s pat : String} : contains s pat = true ↔ pat.toList <:+: s.toList := by
  simp only [contains, List.any_eq_true, List.mem_tails, List.isPrefixOf_iff_prefix]
  rw [List.infix_iff_prefix_suffix]
  exact exists_congr fun t => and_comm

/-- A pattern without the separator lies on one side of it. -/
theorem infix_append_cons_iff {α : Type*} {pat pre rest : List α} {sep : α} (h : sep ∉ pat) :
    pat <:+: pre ++ sep :: rest ↔ pat <:+: pre ∨ pat <:+: rest := by
  constructor
  · rintro ⟨before, after, heq⟩
    rcases List.append_eq_append_iff.mp heq with ⟨mid, hpre, -⟩ | ⟨mid, hmid, hrest⟩
    · exact .inl ⟨before, mid, hpre.symm⟩
    · cases mid with
      | nil =>
        rw [List.append_nil] at hmid
        exact .inl (hmid ▸ (List.suffix_append before pat).isInfix)
      | cons c mid =>
        obtain ⟨rfl, rfl⟩ := List.cons.inj hrest
        right
        rcases List.append_eq_append_iff.mp hmid with ⟨gap, -, hpat⟩ | ⟨gap, -, hgap⟩
        · exact absurd (hpat ▸ List.mem_append_right _ List.mem_cons_self) h
        · cases gap with
          | nil =>
            rw [List.nil_append] at hgap
            exact absurd (hgap ▸ List.mem_cons_self) h
          | cons d gap =>
            obtain ⟨rfl, rfl⟩ := List.cons.inj hgap
            exact ⟨gap, after, rfl⟩
  · rintro (hpre | hrest)
    · exact hpre.trans (List.prefix_append _ _).isInfix
    · exact hrest.trans ((List.suffix_cons sep rest).trans (List.suffix_append pre _)).isInfix

/-- A text in quotes adds its own occurrences only. -/
theorem contains_quoted {pat pre post : String} (quoted : String) (h : '`' ∉ pat.toList)
    (hpre : contains pre pat = false) (hpost : contains post pat = false) :
    contains (pre ++ "`" ++ quoted ++ "`" ++ post) pat = contains quoted pat := by
  rw [Bool.eq_iff_iff, contains_iff, contains_iff]
  rw [← Bool.not_eq_true, contains_iff] at hpre hpost
  have hlist : (pre ++ "`" ++ quoted ++ "`" ++ post).toList =
      pre.toList ++ '`' :: (quoted.toList ++ '`' :: post.toList) := by
    simp [String.toList_append]
  rw [hlist, infix_append_cons_iff h, infix_append_cons_iff h]
  simp [hpre, hpost]

/-- The words of `cs`, the letters of the current one read so far in reverse. -/
def splitWhitespaceFrom (word : List Char) : List Char → List (List Char)
  | [] => if word.isEmpty then [] else [word.reverse]
  | c :: cs =>
    if isWhitespace c then
      if word.isEmpty then splitWhitespaceFrom [] cs
      else word.reverse :: splitWhitespaceFrom [] cs
    else splitWhitespaceFrom (c :: word) cs

def splitWhitespace (s : String) : List String :=
  (splitWhitespaceFrom [] s.toList).map String.ofList

/-- Replace `pat` from left to right, `skip` characters of a match still to be passed over. -/
def replaceFrom (pat rep : List Char) (skip : Nat) : List Char → List Char
  | [] => []
  | c :: cs =>
    if 0 < skip then replaceFrom pat rep (skip - 1) cs
    else if pat.isPrefixOf (c :: cs) then rep ++ replaceFrom pat rep (pat.length - 1) cs
    else c :: replaceFrom pat rep 0 cs

/-- `str::replace` with a non-empty pattern. -/
def replace (s pat rep : String) : String :=
  .ofList (replaceFrom pat.toList rep.toList 0 s.toList)

theorem replaceFrom_char (a b : Char) (cs : List Char) :
    replaceFrom [a] [b] 0 cs = cs.map fun c => if c = a then b else c := by
  induction cs with
  | nil => rfl
  | cons c cs ih =>
    rw [replaceFrom, if_neg (lt_irrefl 0), List.map_cons]
    by_cases hc : c = a
    · rw [if_pos (by simp [hc]), if_pos hc, List.singleton_append, ← ih]
      rfl
    · rw [if_neg (by simp [List.isPrefixOf, Ne.symm hc]), if_neg hc, ih]

/-- Replacing a character by another leaves every third one. -/
theorem mem_replace_char {pat rep : String} {a b c : Char} (hpat : pat.toList = [a])
    (hrep : rep.toList = [b]) (ha : c ≠ a) (hb : c ≠ b) (s : String) :
    c ∈ (replace s pat rep).toList ↔ c ∈ s.toList := by
  rw [replace, String.toList_ofList, hpat, hrep, replaceFrom_char, List.mem_map]
  constructor
  · rintro ⟨d, hd, hdc⟩
    split_ifs at hdc with hda
    · exact absurd hdc.symm hb
    · exact hdc ▸ hd
  · exact fun hc => ⟨c, hc, if_neg ha⟩

/-- A character that the separator lacks stands in one of the joined texts. -/
theorem mem_intercalate {sep : String} {c : Char} (h : c ∉ sep.toList) (texts : List String) :
    c ∈ (sep.intercalate texts).toList ↔ ∃ text ∈ texts, c ∈ text.toList := by
  induction texts with
  | nil => simp
  | cons text texts ih =>
    cases texts with
    | nil => simp
    | cons text' texts =>
      rw [String.intercalate_cons_cons, String.toList_append, String.toList_append, List.mem_append,
        List.mem_append, ih, List.exists_mem_cons_iff]
      simp [h]

def digitsToNat (cs : List Char) : Option Nat :=
  cs.foldl (fun n c => n.bind fun n => if c.isDigit then some (10 * n + (c.toNat - 48)) else none)
    (some 0)

/-- `u64::from_str`: an optional `+`, then decimal digits. -/
def parseU64 (s : String) : Option Nat :=
  let digits := match s.toList with
    | '+' :: cs => cs
    | cs => cs
  if digits.isEmpty then none
  else (digitsToNat digits).filter (· < 2 ^ 64)

theorem digitChar_digit {d : Nat} (h : d < 10) :
    (Nat.digitChar d).isDigit = true ∧ (Nat.digitChar d).toNat - 48 = d := by
  revert d
  decide

theorem digitsToNat_toDigits (n : Nat) : digitsToNat (Nat.toDigits 10 n) = some n := by
  induction n using Nat.strongRecOn with
  | ind n ih =>
    have hdigit := digitChar_digit (Nat.mod_lt n (by decide : 0 < 10))
    rw [Nat.toDigits_eq_if (by decide)]
    split_ifs with hlt
    · rw [Nat.mod_eq_of_lt hlt] at hdigit
      simp [digitsToNat, hdigit]
    · have hrest := ih (n / 10) (by omega)
      rw [digitsToNat, List.foldl_concat]
      rw [digitsToNat] at hrest
      rw [hrest, Option.bind_some, if_pos hdigit.1, hdigit.2]
      congr 1
      omega

/-- Parsing reads back what `Display` of a `u64` writes. -/
theorem parseU64_toString {n : Nat} (h : n < 2 ^ 64) : parseU64 (toString n) = some n := by
  have hlist : (toString n).toList = Nat.toDigits 10 n := by simp
  have hplus : ∀ cs, Nat.toDigits 10 n ≠ '+' :: cs := by
    intro cs hcs
    have hdigit := Nat.isDigit_of_mem_toDigits (b := 10) (n := n) (c := '+') (by decide) (by decide)
      (by rw [hcs]; exact List.mem_cons_self)
    exact absurd hdigit (by decide)
  have hdigits : (match (toString n).toList with
      | '+' :: cs => cs
      | cs => cs) = Nat.toDigits 10 n := by
    rw [hlist]
    split
    · next cs hcs => exact absurd hcs (hplus cs)
    · rfl
  rw [parseU64]
  simp only [hdigits, digitsToNat_toDigits, List.isEmpty_iff, Nat.toDigits_ne_nil, if_false,
    Option.filter_some, decide_eq_true h, if_true]

/-- `str::split` on the characters that satisfy `sep`, empty pieces included. -/
def splitChars (sep : Char → Bool) (cs : List Char) : List (List Char) := cs.splitOnP sep

theorem not_mem_of_mem_splitOn {α : Type*} [BEq α] [LawfulBEq α] {sep : α} {cs piece : List α}
    (h : piece ∈ cs.splitOn sep) : sep ∉ piece := by
  induction cs generalizing piece with
  | nil =>
    rw [List.splitOn_nil, List.mem_singleton] at h
    simp [h]
  | cons c cs ih =>
    rw [List.splitOn_eq_splitOnP, List.splitOnP_cons_eq_if_modifyHead, ← List.splitOn_eq_splitOnP] at h
    split_ifs at h with hc
    · rcases List.mem_cons.mp h with rfl | h
      · exact List.not_mem_nil
      · exact ih h
    · cases hrest : cs.splitOn sep with
      | nil => exact absurd hrest (List.splitOn_ne_nil sep cs)
      | cons head rest =>
        rw [hrest, List.modifyHead_cons, List.mem_cons] at h
        rw [hrest] at ih
        rcases h with rfl | h
        · have hhead := ih List.mem_cons_self
          have hne : sep ≠ c := fun he => hc (by simp [he])
          simp [hne, hhead]
        · exact ih (List.mem_cons_of_mem _ h)

theorem toList_pushn (s : String) (c : Char) (n : Nat) :
    (s.pushn c n).toList = s.toList ++ List.replicate n c := by
  rw [String.pushn_eq_repeat_push]
  induction n with
  | zero => simp [Nat.repeat]
  | succ n ih => rw [Nat.repeat, String.toList_push, ih, List.append_assoc, List.replicate_succ']

def eqIgnoreAsciiCase (a b : String) : Bool := toAsciiLowercase a = toAsciiLowercase b

/-- `str::trim_matches`. -/
def trimMatches (drop : Char → Bool) (s : String) : String :=
  .ofList (((s.toList.dropWhile drop).reverse.dropWhile drop).reverse)

def stripSuffix (s suf : String) : Option String :=
  if endsWith s suf then some (.ofList (s.toList.take (s.toList.length - suf.toList.length)))
  else none

def trimStart (cs : List Char) : List Char := cs.dropWhile isWhitespace

/-- `str::trim_end_matches`. -/
def trimEndMatches (drop : Char → Bool) (cs : List Char) : List Char :=
  (cs.reverse.dropWhile drop).reverse

/-- The slice from byte `n` on; none where no character starts at `n`. -/
def dropBytes : Nat → List Char → Option (List Char)
  | 0, cs => some cs
  | _ + 1, [] => none
  | n + 1, c :: cs => if c.utf8Size ≤ n + 1 then dropBytes (n + 1 - c.utf8Size) cs else none

/-- Bytes of a text in UTF-8. -/
def byteLen : List Char → Nat
  | [] => 0
  | c :: cs => c.utf8Size + byteLen cs

theorem byteLen_append (a b : List Char) : byteLen (a ++ b) = byteLen a + byteLen b := by
  induction a with
  | nil => simp [byteLen]
  | cons c a ih => simp [byteLen, ih, Nat.add_assoc]

theorem dropBytes_append (a b : List Char) : dropBytes (byteLen a) (a ++ b) = some b := by
  induction a with
  | nil => rw [byteLen, List.nil_append, dropBytes]
  | cons c a ih =>
    obtain ⟨n, hn⟩ := Nat.exists_eq_succ_of_ne_zero (Char.utf8Size_pos c).ne'
    have hlen : byteLen (c :: a) = (n + byteLen a) + 1 := by
      rw [byteLen, hn]
      exact Nat.succ_add n _
    rw [hlen, List.cons_append, dropBytes, hn, if_pos (by omega)]
    have hrest : n + byteLen a + 1 - n.succ = byteLen a := by omega
    rw [hrest, ih]

theorem dropBytes_eq_some_iff {n : Nat} {cs rest : List Char} :
    dropBytes n cs = some rest ↔ ∃ cut, cs = cut ++ rest ∧ byteLen cut = n := by
  constructor
  · intro h
    induction cs generalizing n with
    | nil =>
      cases n with
      | zero =>
        rw [dropBytes, Option.some_inj] at h
        exact ⟨[], h, rfl⟩
      | succ n => cases h
    | cons c cs ih =>
      cases n with
      | zero =>
        rw [dropBytes, Option.some_inj] at h
        exact ⟨[], h, rfl⟩
      | succ n =>
        rw [dropBytes] at h
        split_ifs at h with hle
        obtain ⟨cut, rfl, hlen⟩ := ih h
        refine ⟨c :: cut, rfl, ?_⟩
        rw [byteLen]
        omega
  · rintro ⟨cut, rfl, rfl⟩
    exact dropBytes_append cut rest

/-- `str::split_once` at a character. -/
def splitOnce (sep : Char) (s : String) : Option (String × String) :=
  match s.toList.dropWhile (· ≠ sep) with
  | [] => none
  | _ :: rest => some (.ofList (s.toList.takeWhile (· ≠ sep)), .ofList rest)

theorem splitOnce_append {sep : Char} {pre : String} (h : sep ∉ pre.toList) (rest : String) :
    splitOnce sep (pre ++ .singleton sep ++ rest) = some (pre, rest) := by
  have hp : ∀ c ∈ pre.toList, decide (c ≠ sep) = true := fun c hc =>
    decide_eq_true fun he => h (he ▸ hc)
  simp only [splitOnce, String.toList_append, String.toList_singleton, List.append_assoc]
  rw [List.dropWhile_append_of_pos hp, List.takeWhile_append_of_pos hp]
  simp

/-- Position of the first occurrence of `pat`, in characters. -/
def findSub (pat cs : List Char) : Option Nat := cs.tails.findIdx? fun t => pat.isPrefixOf t

theorem findSub_eq_some_iff {pat cs : List Char} {i : Nat} :
    findSub pat cs = some i ↔
      i ≤ cs.length ∧ pat <+: cs.drop i ∧ ∀ j < i, ¬ pat <+: cs.drop j := by
  have hlen : cs.tails.length = cs.length + 1 := List.length_tails cs
  unfold findSub
  rw [List.findIdx?_eq_some_iff_getElem]
  simp only [List.getElem_tails, List.isPrefixOf_iff_prefix]
  constructor
  · intro ⟨hlt, hat, hbefore⟩
    exact ⟨by omega, hat, hbefore⟩
  · intro ⟨hle, hat, hbefore⟩
    exact ⟨by omega, hat, hbefore⟩

end GpuiAgent.Framework
