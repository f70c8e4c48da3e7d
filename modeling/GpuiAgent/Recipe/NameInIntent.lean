import GpuiAgent.Framework.Loop
import GpuiAgent.Framework.Utf8
import GpuiAgent.Recipe.InstinctResolve

namespace GpuiAgent.NameInIntent

open Framework

/-- `str::find` on the bytes: where the pattern first begins. -/
def find (pat : List UInt8) : List UInt8 → Option Nat
  | [] => if pat.isEmpty then some 0 else none
  | b :: bs => if pat.isPrefixOf (b :: bs) then some 0 else (find pat bs).map (· + 1)

def isAsciiUppercase (b : UInt8) : Bool := 0x41 ≤ b && b ≤ 0x5a

def isAsciiAlphanumeric (b : UInt8) : Bool :=
  (0x30 ≤ b && b ≤ 0x39) || isAsciiUppercase b || (0x61 ≤ b && b ≤ 0x7a)

def boundary (b : UInt8) : Bool := !(isAsciiAlphanumeric b || b = 0x5f || b = 0x2d)

/-- One round of the search from byte `start` on. It goes on at a next byte or comes to an answer;
an answer of none is a panic, at a slice off a character's start or an index past the end. -/
def nameRound (bytes name : List UInt8) (start : Nat) : Nat ⊕ Option Bool :=
  match Utf8.sliceFrom bytes start with
  | none => .inr none
  | some rest => match find name rest with
    | none => .inr (some false)
    | some rel =>
      let pos := start + rel
      let stop := pos + name.length
      let before := if pos = 0 then some true else bytes[pos - 1]?.map boundary
      let after := if bytes.length ≤ stop then some true else bytes[stop]?.map boundary
      match before, after with
      | some before, some after => if before && after then .inr (some true) else .inl (pos + 1)
      | _, _ => .inr none

/-- The search in at most `fuel` rounds. -/
def nameInIntentLowered (fuel : Nat) (intentLower name : String) : Option (Option Bool) :=
  let name := if name.toUTF8.toList.any isAsciiUppercase then toAsciiLowercase name else name
  runLoop (nameRound intentLower.toUTF8.toList name.toUTF8.toList) fuel 0

/-- The name between boundaries, or at an end of the text. -/
def WholeWord (bytes name : List UInt8) : Prop :=
  ∃ pre post, bytes = pre ++ name ++ post ∧ pre.getLast?.all boundary = true ∧
    post.head?.all boundary = true

section Find

variable {pat bytes : List UInt8}

theorem find_eq_none (h : find pat bytes = none) : ∀ pre post, bytes ≠ pre ++ pat ++ post := by
  induction bytes with
  | nil =>
    intro pre post heq
    obtain ⟨hpre, -⟩ := List.append_eq_nil_iff.mp heq.symm
    rw [find, (List.append_eq_nil_iff.mp hpre).2] at h
    cases h
  | cons b bs ih =>
    rw [find] at h
    split_ifs at h with hpat
    intro pre post heq
    cases pre with
    | nil => exact hpat (List.isPrefixOf_iff_prefix.mpr ⟨post, heq.symm⟩)
    | cons p pre => exact ih (Option.map_eq_none_iff.mp h) pre post (List.cons.inj heq).2

/-- Where the pattern is found, and that it begins nowhere in front of that. -/
theorem find_eq_some {i : Nat} (h : find pat bytes = some i) :
    (∃ pre post, bytes = pre ++ pat ++ post ∧ pre.length = i) ∧
      ∀ pre post, bytes = pre ++ pat ++ post → i ≤ pre.length := by
  induction bytes generalizing i with
  | nil =>
    rw [find] at h
    split_ifs at h with hpat
    obtain rfl := Option.some_inj.mp h
    exact ⟨⟨[], [], by simpa using hpat, rfl⟩, fun pre post _ => Nat.zero_le _⟩
  | cons b bs ih =>
    rw [find] at h
    split_ifs at h with hpat
    · obtain rfl := Option.some_inj.mp h
      obtain ⟨post, hpost⟩ := List.isPrefixOf_iff_prefix.mp hpat
      exact ⟨⟨[], post, hpost.symm, rfl⟩, fun pre post _ => Nat.zero_le _⟩
    · obtain ⟨j, hj, rfl⟩ := Option.map_eq_some_iff.mp h
      obtain ⟨⟨pre, post, rfl, hlen⟩, hfirst⟩ := ih hj
      refine ⟨⟨b :: pre, post, rfl, by rw [List.length_cons, hlen]⟩, fun pre' post' heq => ?_⟩
      cases pre' with
      | nil => exact absurd (List.isPrefixOf_iff_prefix.mpr ⟨post', heq.symm⟩) hpat
      | cons p pre' =>
        have hle := hfirst pre' post' (List.cons.inj heq).2
        rw [List.length_cons]
        omega

end Find

/-- The bytes around a place, as the loop looks at them. -/
theorem before_eq (pre rest : List UInt8) :
    (if pre.length = 0 then some true else (pre ++ rest)[pre.length - 1]?.map boundary) =
      some (pre.getLast?.all boundary) := by
  cases pre using List.reverseRec with
  | nil => rfl
  | append_singleton pre b => simp

theorem after_eq (pre post : List UInt8) :
    (if (pre ++ post).length ≤ pre.length then some true
      else (pre ++ post)[pre.length]?.map boundary) = some (post.head?.all boundary) := by
  cases post with
  | nil => simp
  | cons b post => simp

section Round

variable {cs word : List Char}

/-- The bytes of characters. -/
def encode (cs : List Char) : List UInt8 := cs.flatMap String.utf8EncodeChar

theorem encode_append (a b : List Char) : encode (a ++ b) = encode a ++ encode b :=
  List.flatMap_append

/-- A round that starts at a character and does not find the name. -/
theorem nameRound_none {before after : List Char} {name : List UInt8}
    (h : find name (encode after) = none) :
    nameRound (encode (before ++ after)) name (encode before).length = .inr (some false) := by
  rw [nameRound, show Utf8.sliceFrom (encode (before ++ after)) (encode before).length =
    some (encode after) from Utf8.sliceFrom_append before after]
  dsimp only
  rw [h]

/-- A round that starts at a character and finds the name behind a gap. -/
theorem nameRound_some (before : List Char) {gap after : List Char}
    (h : find (encode word) (encode (gap ++ word ++ after)) = some (encode gap).length) :
    nameRound (encode (before ++ (gap ++ word ++ after))) (encode word) (encode before).length =
      if (encode (before ++ gap)).getLast?.all boundary && (encode after).head?.all boundary then
        .inr (some true)
      else .inl ((encode (before ++ gap)).length + 1) := by
  have hpos : (encode before).length + (encode gap).length = (encode (before ++ gap)).length := by
    rw [encode_append, List.length_append]
  have hbytes : encode (before ++ (gap ++ word ++ after)) =
      encode (before ++ gap) ++ (encode word ++ encode after) := by
    simp only [encode_append, List.append_assoc]
  have hstop : (encode (before ++ gap)).length + (encode word).length =
      (encode (before ++ gap) ++ encode word).length := by rw [List.length_append]
  rw [nameRound, show Utf8.sliceFrom (encode (before ++ (gap ++ word ++ after)))
    (encode before).length = some (encode (gap ++ word ++ after)) from
      Utf8.sliceFrom_append before _]
  dsimp only
  rw [h]
  dsimp only
  rw [hpos, hbytes, before_eq, hstop, ← List.append_assoc, after_eq]

/-- The search is at a character, and no whole word begins in front of it. -/
def Searched (cs word : List Char) (start : Nat) : Prop :=
  ∃ before after, cs = before ++ after ∧ start = (encode before).length ∧
    ∀ pre post, encode cs = pre ++ encode word ++ post → pre.getLast?.all boundary = true →
      post.head?.all boundary = true → start ≤ pre.length

theorem occurrence_behind {α : Type*} {front rest pre name post : List α}
    (h : front ++ rest = pre ++ name ++ post) (hle : front.length ≤ pre.length) :
    ∃ mid, pre = front ++ mid ∧ rest = mid ++ name ++ post := by
  rw [List.append_assoc] at h
  rcases List.append_eq_append_iff.mp h with ⟨mid, hpre, hrest⟩ | ⟨mid, hfront, hrest⟩
  · exact ⟨mid, hpre, by rw [hrest, List.append_assoc]⟩
  · cases mid with
    | nil => exact ⟨[], by rw [hfront, List.append_nil, List.append_nil], hrest.symm⟩
    | cons b mid =>
      rw [hfront, List.length_append, List.length_cons] at hle
      omega

/-- What a round does: it goes on behind an occurrence that is no whole word, or it answers. -/
theorem nameRound_cases (hne : word ≠ []) (hascii : ∀ c ∈ word, c.toNat < 128) {start : Nat}
    (h : Searched cs word start) :
    (∃ next, nameRound (encode cs) (encode word) start = .inl next ∧ start < next ∧
      Searched cs word next) ∨
    ∃ found, nameRound (encode cs) (encode word) start = .inr (some found) ∧
      (found = true ↔ WholeWord (encode cs) (encode word)) := by
  obtain ⟨before, after, rfl, rfl, hsearched⟩ := h
  cases hfind : find (encode word) (encode after) with
  | none =>
    refine .inr ⟨false, nameRound_none hfind, iff_of_false Bool.false_ne_true ?_⟩
    rintro ⟨pre, post, heq, hpre, hpost⟩
    have hle := hsearched pre post heq hpre hpost
    rw [encode_append] at heq
    obtain ⟨mid, rfl, hafter⟩ := occurrence_behind heq hle
    exact find_eq_none hfind mid post hafter
  | some rel =>
    obtain ⟨⟨gapBytes, restBytes, hsplit, rfl⟩, hfirst⟩ := find_eq_some hfind
    obtain ⟨gap, rest, rfl, rfl, rfl⟩ := Utf8.split_word hne hascii hsplit
    have hround := nameRound_some before hfind
    have hbytes : encode (before ++ (gap ++ word ++ rest)) =
        encode (before ++ gap) ++ encode word ++ encode rest := by
      simp only [encode_append, List.append_assoc]
    split_ifs at hround with hword
    · rw [Bool.and_eq_true] at hword
      exact .inr ⟨true, hround, iff_of_true rfl ⟨_, _, hbytes, hword⟩⟩
    · refine .inl ⟨_, hround, ?_, ?_⟩
      · rw [encode_append, List.length_append]
        omega
      · obtain ⟨w, ws, rfl⟩ := List.exists_cons_of_ne_nil hne
        refine ⟨before ++ gap ++ [w], ws ++ rest, by simp, ?_, fun pre post heq hpre hpost => ?_⟩
        · -- the name begins with a character of one byte
          have hone : encode [w] = [w.toNat.toUInt8] := by
            rw [encode, List.flatMap_singleton,
              Utf8.utf8EncodeChar_ascii (hascii w List.mem_cons_self)]
          rw [encode_append (before ++ gap), hone, List.length_append, List.length_singleton]
        · have hle := hsearched pre post heq hpre hpost
          have hbehind := heq
          rw [encode_append] at hbehind
          obtain ⟨mid, rfl, hafter⟩ := occurrence_behind hbehind hle
          have hgap := hfirst mid post hafter
          rcases Nat.lt_or_eq_of_le hgap with hlt | hlen
          · rw [encode_append, List.length_append, List.length_append]
            exact Nat.add_lt_add_left hlt _
          · -- the occurrence is the one that was rejected
            rw [hbytes, List.append_assoc, List.append_assoc, encode_append] at heq
            obtain ⟨hfront, hrest⟩ := List.append_inj heq (by
              rw [List.length_append, List.length_append]
              exact congrArg _ hlen)
            rw [List.append_cancel_left hrest, encode_append, hfront, hpre, hpost] at hword
            exact absurd rfl hword

/-- The search comes to an answer and never panics. -/
theorem search_ends (hne : word ≠ []) (hascii : ∀ c ∈ word, c.toNat < 128) {fuel start : Nat}
    (h : Searched cs word start) (hfuel : (encode cs).length < fuel + start) :
    ∃ found, runLoop (nameRound (encode cs) (encode word)) fuel start = some (some found) ∧
      (found = true ↔ WholeWord (encode cs) (encode word)) := by
  induction fuel generalizing start with
  | zero =>
    obtain ⟨before, after, rfl, rfl, -⟩ := h
    rw [encode_append, List.length_append] at hfuel
    omega
  | succ fuel ih =>
    rcases nameRound_cases hne hascii h with ⟨next, hround, hlt, hnext⟩ |
        ⟨found, hround, hfound⟩
    · obtain ⟨found, hrun, hfound⟩ := ih hnext (by omega)
      exact ⟨found, by rw [runLoop, hround]; exact hrun, hfound⟩
    · exact ⟨found, by rw [runLoop, hround], hfound⟩

end Round

/-- The name is searched in lower case, whether it is folded or not. -/
theorem foldedName (name : String) :
    (if name.toUTF8.toList.any isAsciiUppercase then toAsciiLowercase name else name) =
      toAsciiLowercase name := by
  split_ifs with hupper
  · rfl
  · refine Utf8.toUTF8_toList_injective ?_
    rw [Utf8.toUTF8_toAsciiLowercase]
    symm
    refine (List.map_congr_left fun b hb => ?_).trans (List.map_id _)
    have hb' := List.any_eq_false.mp (Bool.not_eq_true _ ▸ hupper) b hb
    exact if_neg fun h => hb' (by simp [isAsciiUppercase, h])

theorem loweredName_word {name : String} (hne : name ≠ "")
    (hchars : ∀ c ∈ name.toList, OpSchema.nameChar c = true) :
    (toAsciiLowercase name).toList ≠ [] ∧
      ∀ c ∈ (toAsciiLowercase name).toList, c.toNat < 128 := by
  constructor
  · simpa [toAsciiLowercase] using hne
  · intro c hc
    rw [toAsciiLowercase, String.toList_ofList, List.mem_map] at hc
    obtain ⟨d, hd, rfl⟩ := hc
    have hrange := OpSchema.nameChar_toNat (hchars d hd)
    exact (Utf8.toLower_ascii (by omega)).1

/-- For any text, the search for a schema's name ends, at no slice off a character, and it finds the
name exactly where it stands between boundaries. -/
theorem nameInIntentLowered_spec {name : String} (hne : name ≠ "")
    (hchars : ∀ c ∈ name.toList, OpSchema.nameChar c = true) (hay : String) {fuel : Nat}
    (hfuel : hay.utf8ByteSize < fuel) : ∃ found,
      nameInIntentLowered fuel hay name = some (some found) ∧
        (found = true ↔ WholeWord hay.toUTF8.toList (toAsciiLowercase name).toUTF8.toList) := by
  obtain ⟨hword, hascii⟩ := loweredName_word hne hchars
  rw [nameInIntentLowered]
  simp only [foldedName]
  rw [Utf8.toUTF8_toList, Utf8.toUTF8_toList]
  refine search_ends hword hascii ⟨[], hay.toList, rfl, rfl, fun _ _ _ _ _ => Nat.zero_le _⟩ ?_
  rw [encode, ← Utf8.toUTF8_toList, Utf8.length_toUTF8]
  omega

/-- A character is a boundary as its last byte is, and as its first byte is. -/
theorem boundary_bytes (c : Char) :
    (String.utf8EncodeChar c).getLast?.all boundary = InstinctResolve.boundary c ∧
      (String.utf8EncodeChar c).head?.all boundary = InstinctResolve.boundary c := by
  by_cases hc : c.toNat < 128
  · have hall : ∀ n < 128, boundary n.toUInt8 = InstinctResolve.boundary (Char.ofNat n) := by decide
    have hbyte := hall c.toNat hc
    rw [Char.ofNat_toNat] at hbyte
    rw [Utf8.utf8EncodeChar_ascii hc]
    exact ⟨hbyte, hbyte⟩
  · have hwide : ∀ b : UInt8, 128 ≤ b.toNat → boundary b = true := by
      have hall : ∀ n < 256, 128 ≤ n → boundary (UInt8.ofNat n) = true := by decide +kernel
      intro b hb
      have hbyte := hall b.toNat b.toNat_lt hb
      rwa [UInt8.ofNat_toNat] at hbyte
    have hchar : InstinctResolve.boundary c = true := by
      rw [InstinctResolve.boundary, Bool.not_eq_true', ← Bool.not_eq_true]
      intro h
      have hname : OpSchema.nameChar c = true := by
        simp only [OpSchema.nameChar, Bool.or_eq_true] at h ⊢
        exact .inl h
      have hrange := OpSchema.nameChar_toNat hname
      omega
    obtain ⟨first, more, henc, hfirst, hmore⟩ := Utf8.utf8EncodeChar_wide (Nat.le_of_not_lt hc)
    rw [henc, hchar, List.head?_cons, Option.all_some, List.getLast?_eq_some_getLast (by simp),
      Option.all_some]
    refine ⟨hwide _ ?_, hwide first (by omega)⟩
    rcases List.mem_cons.mp (List.getLast_mem (List.cons_ne_nil first more)) with hlast | hlast
    · rw [hlast]
      omega
    · exact hmore _ hlast

theorem getLast_boundary (cs : List Char) :
    (encode cs).getLast?.all boundary = cs.getLast?.all InstinctResolve.boundary := by
  cases cs using List.reverseRec with
  | nil => rfl
  | append_singleton cs c =>
    rw [encode_append, List.getLast?_append_of_ne_nil, List.getLast?_concat, Option.all_some,
      ← (boundary_bytes c).1, encode, List.flatMap_singleton]
    rw [encode, List.flatMap_singleton]
    exact String.utf8EncodeChar_ne_nil

theorem head_boundary (cs : List Char) :
    (encode cs).head?.all boundary = cs.head?.all InstinctResolve.boundary := by
  cases cs with
  | nil => rfl
  | cons c cs =>
    rw [encode, List.flatMap_cons, List.head?_append_of_ne_nil _ String.utf8EncodeChar_ne_nil,
      (boundary_bytes c).2]
    rfl

/-- The search over characters that the resolution is described with. -/
theorem nameInIntentFrom_iff {name : List Char} (hne : name ≠ []) {before : Option Char}
    {cs : List Char} : InstinctResolve.nameInIntentFrom name before cs = true ↔
      ∃ pre post, cs = pre ++ name ++ post ∧
        (before.toList ++ pre).getLast?.all InstinctResolve.boundary = true ∧
          post.head?.all InstinctResolve.boundary = true := by
  induction cs generalizing before with
  | nil =>
    refine iff_of_false (by simp [InstinctResolve.nameInIntentFrom]) ?_
    rintro ⟨pre, post, heq, -⟩
    have hpre := (List.append_eq_nil_iff.mp heq.symm).1
    exact hne (List.append_eq_nil_iff.mp hpre).2
  | cons c cs ih =>
    have hlast : ∀ pre, (before.toList ++ c :: pre).getLast? = ((some c).toList ++ pre).getLast? := by
      intro pre
      rw [List.getLast?_append_of_ne_nil _ (List.cons_ne_nil c pre)]
      rfl
    have hfirst : before.toList.getLast? = before := by cases before <;> rfl
    rw [InstinctResolve.nameInIntentFrom, Bool.or_eq_true, ih, Bool.and_eq_true, Bool.and_eq_true,
      List.isPrefixOf_iff_prefix]
    constructor
    · rintro (⟨⟨⟨post, hpost⟩, hbefore⟩, hafter⟩ | ⟨pre, post, rfl, hbefore, hafter⟩)
      · refine ⟨[], post, hpost.symm, by rwa [List.append_nil, hfirst], ?_⟩
        rwa [← hpost, List.drop_left] at hafter
      · exact ⟨c :: pre, post, rfl, by rwa [hlast], hafter⟩
    · rintro ⟨pre, post, heq, hbefore, hafter⟩
      cases pre with
      | nil =>
        rw [List.append_nil, hfirst] at hbefore
        refine .inl ⟨⟨⟨post, heq.symm⟩, hbefore⟩, ?_⟩
        rwa [heq, List.nil_append, List.drop_left]
      | cons p pre =>
        obtain ⟨rfl, rfl⟩ := List.cons.inj heq
        exact .inr ⟨pre, post, rfl, by rwa [← hlast], hafter⟩

/-- The loop over the bytes answers as the search over the characters does. -/
theorem nameInIntentLowered_eq {name : String} (hne : name ≠ "")
    (hchars : ∀ c ∈ name.toList, OpSchema.nameChar c = true) (hay : String) {fuel : Nat}
    (hfuel : hay.utf8ByteSize < fuel) : nameInIntentLowered fuel hay name =
      some (some (InstinctResolve.nameInIntentLowered hay name)) := by
  obtain ⟨hword, hascii⟩ := loweredName_word hne hchars
  obtain ⟨found, hrun, hfound⟩ := nameInIntentLowered_spec hne hchars hay hfuel
  rw [hrun]
  congr 2
  rw [Bool.eq_iff_iff, hfound, InstinctResolve.nameInIntentLowered, nameInIntentFrom_iff hword,
    Utf8.toUTF8_toList, Utf8.toUTF8_toList]
  constructor
  · rintro ⟨pre, post, heq, hpre, hpost⟩
    obtain ⟨before, after, hhay, rfl, rfl⟩ := Utf8.split_word hword hascii heq
    exact ⟨before, after, hhay, (getLast_boundary before).symm.trans hpre,
      (head_boundary after).symm.trans hpost⟩
  · rintro ⟨before, after, hhay, hbefore, hafter⟩
    refine ⟨encode before, encode after, ?_, (getLast_boundary before).trans hbefore,
      (head_boundary after).trans hafter⟩
    rw [hhay, List.flatMap_append, List.flatMap_append]
    rfl

/-- A search for a schema's name ends for every intent, at no slice off a character, and it finds
the name exactly where it stands between boundaries in the lower-cased intent. -/
theorem name_in_intent_whole_word (intent : String) {name : String} (hne : name ≠ "")
    (hchars : ∀ c ∈ name.toList, OpSchema.nameChar c = true) : ∃ found,
      (∀ fuel, intent.utf8ByteSize < fuel →
        nameInIntentLowered fuel (toAsciiLowercase intent) name = some (some found)) ∧
      (found = true ↔ WholeWord (toAsciiLowercase intent).toUTF8.toList
        (toAsciiLowercase name).toUTF8.toList) := by
  have hsize : (toAsciiLowercase intent).utf8ByteSize = intent.utf8ByteSize := by
    rw [← Utf8.length_toUTF8, Utf8.toUTF8_toAsciiLowercase, List.length_map, Utf8.length_toUTF8]
  obtain ⟨found, hrun, hfound⟩ := nameInIntentLowered_spec hne hchars (toAsciiLowercase intent)
    (by omega : _ < intent.utf8ByteSize + 1)
  refine ⟨found, fun fuel hfuel => ?_, hfound⟩
  exact runLoop_le hrun (by omega)

theorem name_in_intent_whole_word_second : ∃ found,
    (∀ fuel, "é-todo.add, – TODO.Add!".utf8ByteSize < fuel → nameInIntentLowered fuel
      (toAsciiLowercase "é-todo.add, – TODO.Add!") "todo.add" = some (some found)) ∧
    (found = true ↔ WholeWord (toAsciiLowercase "é-todo.add, – TODO.Add!").toUTF8.toList
      (toAsciiLowercase "todo.add").toUTF8.toList) ∧
    nameInIntentLowered 30 (toAsciiLowercase "é-todo.add, – TODO.Add!") "todo.add" =
      some (some true) ∧
    nameInIntentLowered 30 (toAsciiLowercase "é-todo.add, –todo.adds") "todo.add" =
      some (some false) := by
  obtain ⟨found, hrun, hfound⟩ := @name_in_intent_whole_word "é-todo.add, – TODO.Add!"
    "todo.add" (by decide) (List.all_eq_true.mp (by decide))
  exact ⟨found, hrun, hfound, by decide +kernel, by decide +kernel⟩

end GpuiAgent.NameInIntent
