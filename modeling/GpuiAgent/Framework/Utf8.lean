import GpuiAgent.Framework.RustString

namespace GpuiAgent.Framework.Utf8

theorem toList_loop (bs : ByteArray) (n : Nat) : ∀ (i : Nat) (r : List UInt8), bs.size - i = n →
    ByteArray.toList.loop bs i r = r.reverse ++ bs.data.toList.drop i := by
  induction n with
  | zero =>
    intro i r hn
    have hsize : bs.data.toList.length = bs.size := rfl
    rw [ByteArray.toList.loop, if_neg (by omega), List.drop_eq_nil_of_le (by omega),
      List.append_nil]
  | succ n ih =>
    intro i r hn
    have hi : i < bs.data.toList.length := by
      have hsize : bs.data.toList.length = bs.size := rfl
      omega
    have hget : bs.get! i = bs.data.toList[i] := by
      change bs.data[i]! = bs.data.toList[i]
      rw [getElem!_pos bs.data i hi, Array.getElem_toList]
    rw [ByteArray.toList.loop, if_pos (by omega), ih (i + 1) _ (by omega), List.reverse_cons,
      List.append_assoc, hget, List.drop_eq_getElem_cons hi]
    rfl

theorem toList_eq_data (bs : ByteArray) : bs.toList = bs.data.toList := by
  rw [ByteArray.toList, toList_loop bs _ 0 [] rfl]
  rfl

/-- The bytes of a string are those of its characters. -/
theorem toUTF8_toList (s : String) :
    s.toUTF8.toList = s.toList.flatMap String.utf8EncodeChar := by
  rw [String.toUTF8_eq_toByteArray, ← String.utf8Encode_toList, toList_eq_data, List.utf8Encode,
    List.toList_data_toByteArray]

theorem length_toUTF8 (s : String) : s.toUTF8.toList.length = s.utf8ByteSize := by
  rw [toList_eq_data]
  rfl

theorem toUTF8_toList_injective {s t : String} (h : s.toUTF8.toList = t.toUTF8.toList) : s = t := by
  rw [toList_eq_data, toList_eq_data, Array.toList_inj] at h
  exact String.toByteArray_inj.mp (congrArg ByteArray.mk h)

theorem byte_lt {c : Char} {b : UInt8} (h : b ∈ String.utf8EncodeChar c) : b.toNat < 0xff := by
  unfold String.utf8EncodeChar at h
  dsimp only at h
  split_ifs at h
  all_goals
    simp only [List.mem_cons, List.not_mem_nil, or_false] at h
    rcases h with rfl | rfl | rfl | rfl <;> rw [UInt8.toNat_ofNat'] <;> omega

/-- The byte `0xff` stands in no UTF-8 text. -/
theorem notMem_toUTF8 (s : String) : 0xff ∉ s.toUTF8.toList := by
  intro h
  rw [toUTF8_toList, List.mem_flatMap] at h
  obtain ⟨c, -, hc⟩ := h
  have hlt := byte_lt hc
  contradiction

theorem utf8EncodeChar_ascii {c : Char} (h : c.toNat < 128) :
    String.utf8EncodeChar c = [c.toNat.toUInt8] := by
  unfold String.utf8EncodeChar
  dsimp only
  have hval : c.val.toNat = c.toNat := rfl
  rw [if_pos (by omega), hval]

/-- Every other character has a first byte that continues none, and bytes from 128 on only. -/
theorem utf8EncodeChar_wide {c : Char} (h : 128 ≤ c.toNat) : ∃ b bs,
    String.utf8EncodeChar c = b :: bs ∧ 192 ≤ b.toNat ∧ ∀ b ∈ bs, 128 ≤ b.toNat := by
  have hval : c.val.toNat = c.toNat := rfl
  have hmax : c.val.toNat < 0x110000 := by
    rcases c.valid with hlow | hhigh
    · have hle : c.val.toNat < 0xd800 := hlow
      omega
    · exact hhigh.2
  unfold String.utf8EncodeChar
  dsimp only
  split_ifs with h1
  · omega
  all_goals
    refine ⟨_, _, rfl, ?_, ?_⟩
    · rw [UInt8.toNat_ofNat']
      omega
    · intro b hb
      simp only [List.mem_cons, List.not_mem_nil, or_false] at hb
      rcases hb with rfl | rfl | rfl <;> rw [UInt8.toNat_ofNat'] <;> omega

/-- An ASCII byte of a text is a character of it, between the bytes of the characters around it. -/
theorem split_ascii {cs : List Char} {pre post : List UInt8} {b : UInt8}
    (h : cs.flatMap String.utf8EncodeChar = pre ++ b :: post) (hb : b.toNat < 128) :
    ∃ before c after, cs = before ++ c :: after ∧ pre = before.flatMap String.utf8EncodeChar ∧
      c.toNat = b.toNat ∧ post = after.flatMap String.utf8EncodeChar := by
  induction cs generalizing pre with
  | nil =>
    have hlen := congrArg List.length h
    simp at hlen
  | cons c cs ih =>
    rw [List.flatMap_cons] at h
    have hlater : ∀ mid, pre = String.utf8EncodeChar c ++ mid →
        cs.flatMap String.utf8EncodeChar = mid ++ b :: post → ∃ before d after,
          c :: cs = before ++ d :: after ∧ pre = before.flatMap String.utf8EncodeChar ∧
            d.toNat = b.toNat ∧ post = after.flatMap String.utf8EncodeChar := by
      intro mid hpre hmid
      obtain ⟨before, d, after, rfl, rfl, hd, hpost⟩ := ih hmid
      exact ⟨c :: before, d, after, rfl, by rw [hpre, List.flatMap_cons], hd, hpost⟩
    rcases List.append_eq_append_iff.mp h with ⟨mid, hpre, hmid⟩ | ⟨mid, henc, hmid⟩
    · exact hlater mid hpre hmid
    · cases mid with
      | nil => exact hlater [] (by rw [henc, List.append_nil, List.append_nil]) hmid.symm
      | cons m mid =>
        obtain ⟨rfl, hpost⟩ := List.cons.inj hmid
        by_cases hc : c.toNat < 128
        · rw [utf8EncodeChar_ascii hc] at henc
          obtain ⟨rfl, hone⟩ | ⟨-, hnil⟩ := List.singleton_eq_append_iff.mp henc
          · obtain ⟨rfl, rfl⟩ := List.cons.inj hone
            refine ⟨[], c, cs, rfl, rfl, ?_, hpost⟩
            rw [Nat.toUInt8_eq, UInt8.toNat_ofNat', Nat.mod_eq_of_lt (by omega)]
          · cases hnil
        · -- no byte of a wide character is an ASCII byte
          obtain ⟨first, more, hwide, hfirst, hmore⟩ := utf8EncodeChar_wide (Nat.le_of_not_lt hc)
          have hmem : b ∈ first :: more := by
            rw [← hwide, henc]
            exact List.mem_append_right _ List.mem_cons_self
          rcases List.mem_cons.mp hmem with rfl | hmem
          · omega
          · have hge := hmore b hmem
            omega

theorem flatMap_eq_nil {cs : List Char} (h : cs.flatMap String.utf8EncodeChar = []) : cs = [] := by
  cases cs with
  | nil => rfl
  | cons c cs =>
    rw [List.flatMap_cons, List.append_eq_nil_iff] at h
    exact absurd h.1 String.utf8EncodeChar_ne_nil

/-- The bytes of an ASCII word are that word in the text. -/
theorem split_word {word : List Char} (hne : word ≠ []) (hascii : ∀ c ∈ word, c.toNat < 128)
    {cs : List Char} {pre post : List UInt8}
    (h : cs.flatMap String.utf8EncodeChar = pre ++ word.flatMap String.utf8EncodeChar ++ post) :
    ∃ before after, cs = before ++ word ++ after ∧
      pre = before.flatMap String.utf8EncodeChar ∧
        post = after.flatMap String.utf8EncodeChar := by
  induction word generalizing cs pre with
  | nil => exact absurd rfl hne
  | cons c word ih =>
    have hc := hascii c List.mem_cons_self
    rw [List.flatMap_cons, utf8EncodeChar_ascii hc, List.singleton_append, List.append_assoc,
      List.cons_append] at h
    have hbyte : c.toNat.toUInt8.toNat = c.toNat := by
      rw [Nat.toUInt8_eq, UInt8.toNat_ofNat', Nat.mod_eq_of_lt (by omega)]
    obtain ⟨before, d, after, rfl, rfl, hd, hrest⟩ := split_ascii h (by omega)
    obtain rfl : d = c := Char.toNat_inj.mp (hd.trans hbyte)
    cases word with
    | nil => exact ⟨before, after, by simp, rfl, hrest⟩
    | cons e word =>
      have hrest : after.flatMap String.utf8EncodeChar =
          [] ++ (e :: word).flatMap String.utf8EncodeChar ++ post := hrest.symm
      obtain ⟨gap, after', rfl, hgap, hpost⟩ := ih (List.cons_ne_nil e word)
        (fun x hx => hascii x (List.mem_cons_of_mem _ hx)) hrest
      obtain rfl := flatMap_eq_nil hgap.symm
      exact ⟨before, after', by simp, rfl, hpost⟩

/-- A byte inside a character. -/
def isContinuation (b : UInt8) : Bool := 0x80 ≤ b && b < 0xc0

theorem head_not_continuation (cs : List Char) :
    ∀ b ∈ (cs.flatMap String.utf8EncodeChar).head?, isContinuation b = false := by
  intro b hb
  cases cs with
  | nil => cases hb
  | cons c cs =>
    rw [isContinuation, Bool.and_eq_false_iff, decide_eq_false_iff_not, decide_eq_false_iff_not,
      UInt8.le_iff_toNat_le, UInt8.lt_iff_toNat_lt]
    have hnum : (0x80 : UInt8).toNat = 128 ∧ (0xc0 : UInt8).toNat = 192 := by decide
    by_cases hc : c.toNat < 128
    · rw [List.flatMap_cons, utf8EncodeChar_ascii hc] at hb
      obtain rfl : c.toNat.toUInt8 = b := Option.some_inj.mp hb
      rw [Nat.toUInt8_eq, UInt8.toNat_ofNat']
      omega
    · obtain ⟨first, more, hwide, hfirst, -⟩ := utf8EncodeChar_wide (Nat.le_of_not_lt hc)
      rw [List.flatMap_cons, hwide] at hb
      obtain rfl : first = b := Option.some_inj.mp hb
      omega

/-- The slice of a text from byte `i` on; none, a panic, where no character starts at `i`. -/
def sliceFrom (bytes : List UInt8) (i : Nat) : Option (List UInt8) :=
  if i ≤ bytes.length ∧ (bytes[i]?.all fun b => !isContinuation b) then some (bytes.drop i)
  else none

theorem sliceFrom_append (before after : List Char) :
    sliceFrom ((before ++ after).flatMap String.utf8EncodeChar)
      (before.flatMap String.utf8EncodeChar).length =
        some (after.flatMap String.utf8EncodeChar) := by
  rw [List.flatMap_append, sliceFrom, List.drop_left, if_pos]
  rw [List.length_append, List.getElem?_append_right (Nat.le_refl _), Nat.sub_self,
    ← List.head?_eq_getElem?, Option.all_eq_true]
  refine ⟨Nat.le_add_right _ _, fun b hb => ?_⟩
  rw [head_not_continuation after b hb]
  rfl

/-- `u8::to_ascii_lowercase`. -/
def asciiLower (b : UInt8) : UInt8 := if 0x41 ≤ b ∧ b ≤ 0x5a then b + 0x20 else b

theorem toLower_ascii {c : Char} (h : c.toNat < 128) :
    c.toLower.toNat < 128 ∧ c.toLower.toNat.toUInt8 = asciiLower c.toNat.toUInt8 := by
  have hall : ∀ n < 128, (Char.ofNat n).toLower.toNat < 128 ∧
      (Char.ofNat n).toLower.toNat.toUInt8 = asciiLower n.toUInt8 := by decide
  have hc := hall c.toNat h
  rwa [Char.ofNat_toNat] at hc

theorem utf8EncodeChar_toLower (c : Char) :
    String.utf8EncodeChar c.toLower = (String.utf8EncodeChar c).map asciiLower := by
  have hlower : ∀ b : UInt8, 128 ≤ b.toNat → asciiLower b = b := by
    intro b hb
    refine if_neg fun h => ?_
    have hle : b.toNat ≤ 0x5a := UInt8.le_iff_toNat_le.mp h.2
    omega
  by_cases hc : c.toNat < 128
  · obtain ⟨hlt, heq⟩ := toLower_ascii hc
    rw [utf8EncodeChar_ascii hc, utf8EncodeChar_ascii hlt, heq]
    rfl
  · have hsame : c.toLower = c := by
      unfold Char.toLower
      refine dif_neg fun h => ?_
      have hle : c.toNat ≤ 90 := UInt32.le_iff_toNat_le.mp h.2
      omega
    obtain ⟨first, more, hwide, hfirst, hmore⟩ := utf8EncodeChar_wide (Nat.le_of_not_lt hc)
    rw [hsame, hwide, List.map_cons, hlower first (by omega),
      List.map_congr_left fun b hb => hlower b (hmore b hb), List.map_id']

theorem toUTF8_toAsciiLowercase (s : String) :
    (toAsciiLowercase s).toUTF8.toList = s.toUTF8.toList.map asciiLower := by
  rw [toUTF8_toList, toUTF8_toList, toAsciiLowercase, String.toList_ofList, List.flatMap_map,
    List.map_flatMap]
  exact List.flatMap_congr fun c _ => utf8EncodeChar_toLower c

end GpuiAgent.Framework.Utf8
