import Mathlib.Data.List.Perm.Basic

namespace GpuiAgent.Framework

section ValueAt

variable {κ ν : Type} [DecidableEq κ]

/-- The value that entries have under a key: nothing when the key is missing, no reading when it is
there more than once. -/
def valueAt (key : κ) (entries : List (κ × ν)) : Option (Option ν) :=
  match entries.filter fun e => e.1 = key with
  | [] => some none
  | [e] => some (some e.2)
  | _ :: _ :: _ => none

theorem valueAt_perm {key : κ} {entries entries' : List (κ × ν)} (h : entries.Perm entries') :
    valueAt key entries = valueAt key entries' := by
  have hf := h.filter fun e => e.1 = key
  have hlen := hf.length_eq
  simp only [valueAt]
  generalize (entries.filter fun e => e.1 = key) = es at hf hlen
  generalize (entries'.filter fun e => e.1 = key) = es' at hf hlen
  cases es with
  | nil => rw [hf.nil_eq]
  | cons e es =>
    cases es with
    | nil => rw [List.singleton_perm.mp hf]
    | cons f es =>
      cases es' with
      | nil => simp at hlen
      | cons e' es' =>
        cases es' with
        | nil => simp at hlen
        | cons f' es' => rfl

theorem length_filter_le_of_valueAt {key : κ} {entries : List (κ × ν)}
    (h : (valueAt key entries).isSome) : (entries.filter fun e => e.1 = key).length ≤ 1 := by
  simp only [valueAt] at h
  split at h
  next heq => simp [heq]
  next heq => simp [heq]
  next heq => simp at h

/-- Entries under other keys do not matter. -/
theorem valueAt_append {key : κ} {entries others : List (κ × ν)} (h : ∀ e ∈ others, e.1 ≠ key) :
    valueAt key (entries ++ others) = valueAt key entries := by
  have hothers : (others.filter fun e => e.1 = key) = [] := by
    apply List.filter_eq_nil_iff.mpr
    intro e he
    simpa using h e he
  simp only [valueAt, List.filter_append, hothers, List.append_nil]

theorem valueAt_of_notMem {key : κ} {entries : List (κ × ν)} (h : ∀ e ∈ entries, e.1 ≠ key) :
    valueAt key entries = some none := by
  have hempty : valueAt key ([] ++ entries) = valueAt key [] := valueAt_append h
  rw [List.nil_append] at hempty
  rw [hempty]
  rfl

theorem valueAt_cons_self {key : κ} {value : ν} {others : List (κ × ν)}
    (h : ∀ e ∈ others, e.1 ≠ key) : valueAt key ((key, value) :: others) = some (some value) := by
  have hone : valueAt key ([(key, value)] ++ others) = valueAt key [(key, value)] :=
    valueAt_append h
  rw [List.singleton_append] at hone
  rw [hone]
  simp [valueAt]

end ValueAt

/-- How a value is written, and read where it can be. All values that are read fit; those that fit
are read back where writing loses nothing. -/
structure ValueCodec (ν α : Type) where
  enc : α → ν
  dec : ν → Option α
  Fits : α → Prop
  Lossless : α → Prop
  dec_enc : ∀ {a}, Fits a → Lossless a → dec (enc a) = some a
  fits_of_dec : ∀ {v a}, dec v = some a → Fits a
  lossless_of_back : ∀ {a}, dec (enc a) = some a → Lossless a

/-- A field of a record: its value may be left out, and may be missing. Where the fields come without
their keys, only the last ones can be missing: then `atEnd` is read. -/
structure FieldCodec (ν α : Type) where
  enc : α → Option ν
  dec : Option ν → Option α
  atEnd : Option α
  Fits : α → Prop
  Lossless : α → Prop
  dec_enc : ∀ {a}, Fits a → Lossless a → dec (enc a) = some a
  fits_of_dec : ∀ {v a}, dec v = some a → Fits a
  dec_none_of_atEnd : ∀ {a}, atEnd = some a → dec none = some a
  lossless_of_back : ∀ {a}, dec (enc a) = some a → Lossless a

/-- A record as entries, or as the values of its fields in their order. What decides how a value is
read from entries is what stands under the keys that it uses, each of them at most once. -/
structure RecordCodec (κ ν α : Type) [DecidableEq κ] where
  keys : List κ
  uses : α → List κ
  enc : α → List (κ × ν)
  dec : List (κ × ν) → Option α
  /-- The value of the leading fields, and what is left for the next ones. -/
  decSeq : List ν → Option (α × List ν)
  Fits : α → Prop
  Lossless : α → Prop
  dec_enc : ∀ {a}, Fits a → Lossless a → dec (enc a) = some a
  fits_of_dec : ∀ {es a}, dec es = some a → Fits a
  lossless_of_back : ∀ {a}, dec (enc a) = some a → Lossless a
  enc_keys : ∀ a, ∀ e ∈ enc a, e.1 ∈ keys
  uses_keys : ∀ a, ∀ k ∈ uses a, k ∈ keys
  once : ∀ {es a}, dec es = some a → ∀ k ∈ uses a, (valueAt k es).isSome
  dec_of_uses : ∀ {es es' a}, dec es = some a → (∀ k ∈ uses a, valueAt k es' = valueAt k es) →
    dec es' = some a
  dec_of_decSeq : ∀ {vs a rest}, decSeq vs = some (a, rest) → ∃ used, vs = used ++ rest ∧
    used.length ≤ keys.length ∧ (used.length < keys.length → rest = []) ∧
    dec (keys.zip used) = some a

namespace FieldCodec

variable {ν α : Type} (value : ValueCodec ν α)

/-- A field that is always written and must be there. -/
def required : FieldCodec ν α where
  enc a := some (value.enc a)
  dec v := v.bind value.dec
  atEnd := none
  Fits := value.Fits
  Lossless := value.Lossless
  dec_enc := value.dec_enc
  fits_of_dec {v a} h := by
    obtain ⟨x, -, hx⟩ := Option.bind_eq_some_iff.mp h
    exact value.fits_of_dec hx
  dec_none_of_atEnd := nofun
  lossless_of_back := value.lossless_of_back

theorem fits_of_default {default : α} (fits : value.Fits default) {v : Option ν} {a : α}
    (h : v.elim (some default) value.dec = some a) : value.Fits a := by
  cases v with
  | none =>
    obtain rfl := Option.some.inj h
    exact fits
  | some x => exact value.fits_of_dec h

/-- A field with a default that is always written. -/
def defaulted (default : α) (fits : value.Fits default) : FieldCodec ν α where
  enc a := some (value.enc a)
  dec v := v.elim (some default) value.dec
  atEnd := some default
  Fits := value.Fits
  Lossless := value.Lossless
  dec_enc := value.dec_enc
  fits_of_dec := fits_of_default value fits
  dec_none_of_atEnd h := h
  lossless_of_back := value.lossless_of_back

/-- A field with a default that is left out where a test says that it has it. -/
def skipped (skip : α → Bool) (default : α) (skip_default : ∀ a, skip a = true → a = default)
    (fits : value.Fits default) : FieldCodec ν α where
  enc a := if skip a then none else some (value.enc a)
  dec v := v.elim (some default) value.dec
  atEnd := some default
  Fits := value.Fits
  Lossless a := skip a = false → value.Lossless a
  dec_enc {a} h hlossless := by
    cases ha : skip a with
    | true =>
      rw [skip_default a ha]
      rfl
    | false => exact value.dec_enc h (hlossless ha)
  fits_of_dec := fits_of_default value fits
  dec_none_of_atEnd h := h
  lossless_of_back {a} h hskip := by
    rw [hskip] at h
    exact value.lossless_of_back h

section Null

variable [DecidableEq ν] (null : ν)

/-- An optional value, with a null for none. -/
def readOptional (v : Option ν) : Option (Option α) :=
  match v with
  | none => some none
  | some x => if x = null then some none else (value.dec x).map some

/-- The values that an optional field has: those that fit and are not written as null. -/
def OptionalFits (o : Option α) : Prop := ∀ a, o = some a → value.Fits a ∧ value.enc a ≠ null

variable {value null}

theorem readOptional_some {a : α} (h : OptionalFits value null (some a))
    (hlossless : value.Lossless a) :
    readOptional value null (some (value.enc a)) = some (some a) := by
  obtain ⟨hfits, hnull⟩ := h a rfl
  rw [readOptional, if_neg hnull, value.dec_enc hfits hlossless]
  rfl

/-- What is read from something else than null is not written as null. -/
theorem optionalFits_of_read (keeps : ∀ x a, x ≠ null → value.dec x = some a → value.enc a ≠ null)
    {v : Option ν} {o : Option α} (h : readOptional value null v = some o) :
    OptionalFits value null o := by
  rintro a rfl
  cases v with
  | none => simp [readOptional] at h
  | some x =>
    rw [readOptional] at h
    split_ifs at h with hx
    · cases h
    · obtain ⟨b, hb, hab⟩ := Option.map_eq_some_iff.mp h
      obtain rfl := Option.some.inj hab
      exact ⟨value.fits_of_dec hb, keeps x b hx hb⟩

theorem lossless_of_readOptional {a : α}
    (h : readOptional value null (some (value.enc a)) = some (some a)) : value.Lossless a := by
  rw [readOptional] at h
  split_ifs at h with hx
  · cases h
  · obtain ⟨b, hb, hab⟩ := Option.map_eq_some_iff.mp h
    obtain rfl := Option.some.inj hab
    exact value.lossless_of_back hb

variable (value null) (keeps : ∀ x a, x ≠ null → value.dec x = some a → value.enc a ≠ null)

/-- An optional field that is left out when it has no value. -/
def optional (atEnd : Bool) : FieldCodec ν (Option α) where
  enc o := o.map value.enc
  dec := readOptional value null
  atEnd := if atEnd then some none else none
  Fits := OptionalFits value null
  Lossless o := ∀ a ∈ o, value.Lossless a
  dec_enc {o} h hlossless := by
    cases o with
    | none => rfl
    | some a => exact readOptional_some h (hlossless a rfl)
  fits_of_dec := optionalFits_of_read keeps
  dec_none_of_atEnd {o} h := by
    split_ifs at h
    exact h
  lossless_of_back {o} h := by
    rintro a rfl
    exact lossless_of_readOptional h

/-- An optional field that is written as null when it has no value. -/
def nullable (atEnd : Bool) : FieldCodec ν (Option α) where
  enc o := some (o.elim null value.enc)
  dec := readOptional value null
  atEnd := if atEnd then some none else none
  Fits := OptionalFits value null
  Lossless o := ∀ a ∈ o, value.Lossless a
  dec_enc {o} h hlossless := by
    cases o with
    | none => simp [readOptional]
    | some a => exact readOptional_some h (hlossless a rfl)
  fits_of_dec := optionalFits_of_read keeps
  dec_none_of_atEnd {o} h := by
    split_ifs at h
    exact h
  lossless_of_back {o} h := by
    rintro a rfl
    exact lossless_of_readOptional h

end Null

end FieldCodec

namespace RecordCodec

variable {κ ν α β : Type} [DecidableEq κ]

section Rules

variable (codec : RecordCodec κ ν α)

theorem dec_enc_iff {a : α} :
    codec.dec (codec.enc a) = some a ↔ codec.Fits a ∧ codec.Lossless a :=
  ⟨fun h => ⟨codec.fits_of_dec h, codec.lossless_of_back h⟩, fun h => codec.dec_enc h.1 h.2⟩

theorem dec_congr {es es' : List (κ × ν)} (h : ∀ k ∈ codec.keys, valueAt k es' = valueAt k es) :
    codec.dec es' = codec.dec es := by
  apply Option.ext
  intro a
  constructor
  · exact fun ha => codec.dec_of_uses ha fun k hk => (h k (codec.uses_keys a k hk)).symm
  · exact fun ha => codec.dec_of_uses ha fun k hk => h k (codec.uses_keys a k hk)

theorem dec_append {es others : List (κ × ν)} (h : ∀ e ∈ others, e.1 ∉ codec.keys) :
    codec.dec (es ++ others) = codec.dec es := by
  apply codec.dec_congr
  intro k hk
  exact valueAt_append fun e he hek => h e he (hek ▸ hk)

theorem dec_prepend {es others : List (κ × ν)} (h : ∀ e ∈ others, e.1 ∉ codec.keys) :
    codec.dec (others ++ es) = codec.dec es := by
  rw [← @dec_append _ _ _ _ codec es others h]
  exact codec.dec_congr fun k _ => valueAt_perm List.perm_append_comm

/-- A value that is read is read from the same entries in any order, among any others under keys that
it does not use. -/
theorem dec_among {es others all : List (κ × ν)} {a : α} (h : codec.dec es = some a)
    (hothers : ∀ e ∈ others, e.1 ∉ codec.uses a) (hperm : all.Perm (es ++ others)) :
    codec.dec all = some a := by
  apply codec.dec_of_uses h
  intro k hk
  rw [valueAt_perm hperm]
  exact valueAt_append fun e he hek => hothers e he (hek ▸ hk)

end Rules

/-- The record with no field. -/
def empty : RecordCodec κ ν Unit where
  keys := []
  uses _ := []
  enc _ := []
  dec _ := some ()
  decSeq vs := some ((), vs)
  Fits _ := True
  Lossless _ := True
  dec_enc _ _ := rfl
  fits_of_dec _ := trivial
  lossless_of_back _ := trivial
  enc_keys _ _ he := absurd he List.not_mem_nil
  uses_keys _ _ hk := hk
  once _ _ hk := absurd hk List.not_mem_nil
  dec_of_uses h _ := h
  dec_of_decSeq {vs a rest} h := by
    obtain ⟨-, rfl⟩ := Prod.mk.inj (Option.some.inj h)
    exact ⟨[], rfl, Nat.le_refl 0, fun hlt => absurd hlt (Nat.lt_irrefl 0), rfl⟩

theorem valueAt_field (key : κ) (v : Option ν) :
    valueAt key (v.toList.map fun v => (key, v)) = some v := by
  cases v with
  | none => rfl
  | some v => simp [valueAt]

/-- The record with one field. -/
def field (key : κ) (codec : FieldCodec ν α) : RecordCodec κ ν α where
  keys := [key]
  uses _ := [key]
  enc a := (codec.enc a).toList.map fun v => (key, v)
  dec es := (valueAt key es).bind codec.dec
  decSeq
    | [] => codec.atEnd.map fun a => (a, [])
    | v :: vs => (codec.dec (some v)).map fun a => (a, vs)
  Fits := codec.Fits
  Lossless := codec.Lossless
  dec_enc {a} h hlossless := by
    rw [valueAt_field]
    exact codec.dec_enc h hlossless
  fits_of_dec h := by
    obtain ⟨v, -, hv⟩ := Option.bind_eq_some_iff.mp h
    exact codec.fits_of_dec hv
  lossless_of_back {a} h := by
    rw [valueAt_field] at h
    exact codec.lossless_of_back h
  enc_keys a e he := by
    obtain ⟨v, -, rfl⟩ := List.mem_map.mp he
    exact List.mem_singleton_self key
  uses_keys _ _ hk := hk
  once h k hk := by
    obtain rfl := List.mem_singleton.mp hk
    obtain ⟨v, hv, -⟩ := Option.bind_eq_some_iff.mp h
    rw [hv]
    rfl
  dec_of_uses h hkeys := by
    rw [hkeys key (List.mem_singleton_self key)]
    exact h
  dec_of_decSeq {vs a rest} h := by
    cases vs with
    | nil =>
      obtain ⟨b, hb, hab⟩ := Option.map_eq_some_iff.mp h
      obtain ⟨rfl, rfl⟩ := Prod.mk.inj hab
      exact ⟨[], rfl, by simp, fun _ => rfl, codec.dec_none_of_atEnd hb⟩
    | cons v vs =>
      obtain ⟨b, hb, hab⟩ := Option.map_eq_some_iff.mp h
      obtain ⟨rfl, rfl⟩ := Prod.mk.inj hab
      refine ⟨[v], rfl, by simp, fun hlt => absurd hlt (by simp), ?_⟩
      rw [List.zip_cons_cons, List.zip_nil_left, valueAt_cons_self (List.forall_mem_nil _)]
      exact hb

/-- Next to the entries of another record each one reads its own. -/
theorem dec_side_by_side (codec : RecordCodec κ ν α) (other : RecordCodec κ ν β)
    (disjoint : ∀ k ∈ codec.keys, k ∉ other.keys) {es es' : List (κ × ν)}
    (keys : ∀ e ∈ es, e.1 ∈ codec.keys) (keys' : ∀ e ∈ es', e.1 ∈ other.keys) :
    codec.dec (es ++ es') = codec.dec es ∧ other.dec (es ++ es') = other.dec es' :=
  ⟨codec.dec_append fun e he hk => disjoint e.1 hk (keys' e he),
    other.dec_prepend fun e he hk => disjoint e.1 (keys e he) hk⟩

omit [DecidableEq κ] in
/-- The leading values stand under the leading keys, where no value is left over before all keys are
used up. -/
theorem zip_append_of_short {keys keys' : List κ} {used used' : List ν}
    (le : used.length ≤ keys.length) (short : used.length < keys.length → used' = []) :
    (keys ++ keys').zip (used ++ used') = keys.zip used ++ keys'.zip used' := by
  obtain hlt | heq := Nat.lt_or_eq_of_le le
  · obtain rfl := short hlt
    have hle : used.length ≤ (keys ++ keys').length := by
      rw [List.length_append]
      omega
    rw [List.append_nil, List.zip_nil_right, List.append_nil,
      @List.zip_eq_zip_take_min _ _ (keys ++ keys') used, @List.zip_eq_zip_take_min _ _ keys used,
      Nat.min_eq_right le, Nat.min_eq_right hle, List.take_append_of_le_length le]
  · exact List.zip_append heq.symm

/-- The fields of two records side by side, with different keys. -/
def pair (codec : RecordCodec κ ν α) (other : RecordCodec κ ν β)
    (disjoint : ∀ k ∈ codec.keys, k ∉ other.keys := by simp) : RecordCodec κ ν (α × β) where
  keys := codec.keys ++ other.keys
  uses ab := codec.uses ab.1 ++ other.uses ab.2
  enc ab := codec.enc ab.1 ++ other.enc ab.2
  dec es := (codec.dec es).bind fun a => (other.dec es).map fun b => (a, b)
  decSeq vs := (codec.decSeq vs).bind fun a =>
    (other.decSeq a.2).map fun b => ((a.1, b.1), b.2)
  Fits ab := codec.Fits ab.1 ∧ other.Fits ab.2
  Lossless ab := codec.Lossless ab.1 ∧ other.Lossless ab.2
  dec_enc {ab} h hlossless := by
    obtain ⟨hfirst, hsecond⟩ := dec_side_by_side codec other disjoint
      (codec.enc_keys ab.1) (other.enc_keys ab.2)
    rw [hfirst, hsecond, codec.dec_enc h.1 hlossless.1, other.dec_enc h.2 hlossless.2]
    rfl
  fits_of_dec {es ab} h := by
    obtain ⟨a, ha, h⟩ := Option.bind_eq_some_iff.mp h
    obtain ⟨b, hb, rfl⟩ := Option.map_eq_some_iff.mp h
    exact ⟨codec.fits_of_dec ha, other.fits_of_dec hb⟩
  lossless_of_back {ab} h := by
    obtain ⟨hfirst, hsecond⟩ := dec_side_by_side codec other disjoint
      (codec.enc_keys ab.1) (other.enc_keys ab.2)
    rw [hfirst, hsecond] at h
    obtain ⟨a, ha, h⟩ := Option.bind_eq_some_iff.mp h
    obtain ⟨b, hb, rfl⟩ := Option.map_eq_some_iff.mp h
    exact ⟨codec.lossless_of_back ha, other.lossless_of_back hb⟩
  enc_keys ab e he := by
    rcases List.mem_append.mp he with he | he
    · exact List.mem_append_left _ (codec.enc_keys _ e he)
    · exact List.mem_append_right _ (other.enc_keys _ e he)
  uses_keys ab k hk := by
    rcases List.mem_append.mp hk with hk | hk
    · exact List.mem_append_left _ (codec.uses_keys _ k hk)
    · exact List.mem_append_right _ (other.uses_keys _ k hk)
  once {es ab} h k hk := by
    obtain ⟨a, ha, h⟩ := Option.bind_eq_some_iff.mp h
    obtain ⟨b, hb, rfl⟩ := Option.map_eq_some_iff.mp h
    rcases List.mem_append.mp hk with hk | hk
    · exact codec.once ha k hk
    · exact other.once hb k hk
  dec_of_uses {es es' ab} h hkeys := by
    obtain ⟨a, ha, h⟩ := Option.bind_eq_some_iff.mp h
    obtain ⟨b, hb, rfl⟩ := Option.map_eq_some_iff.mp h
    rw [codec.dec_of_uses ha fun k hk => hkeys k (List.mem_append_left _ hk),
      other.dec_of_uses hb fun k hk => hkeys k (List.mem_append_right _ hk)]
    rfl
  dec_of_decSeq {vs ab rest} h := by
    obtain ⟨⟨a, mid⟩, ha, h⟩ := Option.bind_eq_some_iff.mp h
    obtain ⟨⟨b, rest'⟩, hb, hab⟩ := Option.map_eq_some_iff.mp h
    obtain ⟨rfl, rfl⟩ := Prod.mk.inj hab
    obtain ⟨used, rfl, hle, hshort, hdec⟩ := codec.dec_of_decSeq ha
    obtain ⟨used', rfl, hle', hshort', hdec'⟩ := other.dec_of_decSeq hb
    have hzip : (codec.keys ++ other.keys).zip (used ++ used') =
        codec.keys.zip used ++ other.keys.zip used' :=
      zip_append_of_short hle fun hlt => (List.append_eq_nil_iff.mp (hshort hlt)).1
    obtain ⟨hfirst, hsecond⟩ := dec_side_by_side codec other disjoint
      (fun e he => (List.of_mem_zip he).1) (fun e he => (List.of_mem_zip he).1)
    refine ⟨used ++ used', (List.append_assoc _ _ _).symm, ?_, fun hlt => ?_, ?_⟩
    · simp only [List.length_append]
      omega
    · simp only [List.length_append] at hlt
      by_cases hfull : used.length < codec.keys.length
      · exact (List.append_eq_nil_iff.mp (hshort hfull)).2
      · exact hshort' (by omega)
    · rw [hzip, hfirst, hsecond, hdec, hdec']
      rfl

/-- The record as the fields of one of the forms of another type. -/
def inject (codec : RecordCodec κ ν α) (make : α → β) (parts : β → Option α)
    (parts_make : ∀ a, parts (make a) = some a) : RecordCodec κ ν β where
  keys := codec.keys
  uses b := (parts b).elim [] codec.uses
  enc b := (parts b).elim [] codec.enc
  dec es := (codec.dec es).map make
  decSeq vs := (codec.decSeq vs).map fun a => (make a.1, a.2)
  Fits b := ∃ a, codec.Fits a ∧ make a = b
  Lossless b := ∀ a ∈ parts b, codec.Lossless a
  dec_enc {b} h hlossless := by
    obtain ⟨a, ha, rfl⟩ := h
    have hparts := parts_make a
    rw [hparts]
    show (codec.dec (codec.enc a)).map make = some (make a)
    rw [codec.dec_enc ha (hlossless a hparts)]
    rfl
  fits_of_dec h := by
    obtain ⟨a, ha, rfl⟩ := Option.map_eq_some_iff.mp h
    exact ⟨a, codec.fits_of_dec ha, rfl⟩
  lossless_of_back {b} h := by
    intro a ha
    rw [Option.mem_def.mp ha] at h
    obtain ⟨a', ha', rfl⟩ := Option.map_eq_some_iff.mp h
    obtain rfl := Option.some.inj ((parts_make a').symm.trans ha)
    exact codec.lossless_of_back ha'
  enc_keys b e he := by
    cases hb : parts b with
    | none => simp [hb] at he
    | some a =>
      rw [hb] at he
      exact codec.enc_keys a e he
  uses_keys b k hk := by
    cases hb : parts b with
    | none => simp [hb] at hk
    | some a =>
      rw [hb] at hk
      exact codec.uses_keys a k hk
  once h k hk := by
    obtain ⟨a, ha, rfl⟩ := Option.map_eq_some_iff.mp h
    rw [parts_make] at hk
    exact codec.once ha k hk
  dec_of_uses h hkeys := by
    obtain ⟨a, ha, rfl⟩ := Option.map_eq_some_iff.mp h
    rw [parts_make] at hkeys
    rw [codec.dec_of_uses ha hkeys]
    rfl
  dec_of_decSeq h := by
    obtain ⟨⟨a, rest'⟩, ha, hab⟩ := Option.map_eq_some_iff.mp h
    obtain ⟨rfl, rfl⟩ := Prod.mk.inj hab
    obtain ⟨used, hvs, hle, hshort, hdec⟩ := codec.dec_of_decSeq ha
    exact ⟨used, hvs, hle, hshort, by rw [hdec]; rfl⟩

@[simp] theorem empty_keys : (empty : RecordCodec κ ν Unit).keys = [] := (rfl)

@[simp] theorem field_keys (key : κ) (codec : FieldCodec ν α) : (field key codec).keys = [key] :=
  (rfl)

@[simp] theorem pair_keys (codec : RecordCodec κ ν α) (other : RecordCodec κ ν β)
    (disjoint : ∀ k ∈ codec.keys, k ∉ other.keys) :
    (codec.pair other disjoint).keys = codec.keys ++ other.keys := (rfl)

@[simp] theorem inject_keys (codec : RecordCodec κ ν α) (make : α → β) (parts : β → Option α)
    (parts_make : ∀ a, parts (make a) = some a) :
    (codec.inject make parts parts_make).keys = codec.keys := (rfl)

@[simp] theorem empty_fits (u : Unit) : (empty : RecordCodec κ ν Unit).Fits u := trivial

@[simp] theorem field_fits (key : κ) (codec : FieldCodec ν α) (a : α) :
    (field key codec).Fits a ↔ codec.Fits a := Iff.rfl

@[simp] theorem pair_fits (codec : RecordCodec κ ν α) (other : RecordCodec κ ν β)
    (disjoint : ∀ k ∈ codec.keys, k ∉ other.keys) (a : α) (b : β) :
    (codec.pair other disjoint).Fits (a, b) ↔ codec.Fits a ∧ other.Fits b := Iff.rfl

@[simp] theorem empty_lossless (u : Unit) : (empty : RecordCodec κ ν Unit).Lossless u := trivial

@[simp] theorem field_lossless (key : κ) (codec : FieldCodec ν α) (a : α) :
    (field key codec).Lossless a ↔ codec.Lossless a := Iff.rfl

@[simp] theorem pair_lossless (codec : RecordCodec κ ν α) (other : RecordCodec κ ν β)
    (disjoint : ∀ k ∈ codec.keys, k ∉ other.keys) (a : α) (b : β) :
    (codec.pair other disjoint).Lossless (a, b) ↔ codec.Lossless a ∧ other.Lossless b := Iff.rfl

@[simp] theorem inject_lossless (codec : RecordCodec κ ν α) {make : α → β} {parts : β → Option α}
    {parts_make : ∀ a, parts (make a) = some a} (b : β) :
    (codec.inject make parts parts_make).Lossless b ↔ ∀ a ∈ parts b, codec.Lossless a := Iff.rfl

theorem inject_fits (codec : RecordCodec κ ν α) {make : α → β} {parts : β → Option α}
    {parts_make : ∀ a, parts (make a) = some a} (b : β) :
    (codec.inject make parts parts_make).Fits b ↔ ∃ a, codec.Fits a ∧ make a = b := Iff.rfl

theorem pair_enc (codec : RecordCodec κ ν α) (other : RecordCodec κ ν β)
    (disjoint : ∀ k ∈ codec.keys, k ∉ other.keys) (a : α) (b : β) :
    (codec.pair other disjoint).enc (a, b) = codec.enc a ++ other.enc b := rfl

theorem pair_dec (codec : RecordCodec κ ν α) (other : RecordCodec κ ν β)
    (disjoint : ∀ k ∈ codec.keys, k ∉ other.keys) {es : List (κ × ν)} {a : α} {b : β} :
    (codec.pair other disjoint).dec es = some (a, b) ↔
      codec.dec es = some a ∧ other.dec es = some b := by
  show ((codec.dec es).bind fun a => (other.dec es).map fun b => (a, b)) = some (a, b) ↔ _
  cases codec.dec es <;> cases other.dec es <;> simp

/-- Without the entry that it needs, a field is not read. -/
theorem required_dec_of_missing {key : κ} {value : ValueCodec ν α} {es : List (κ × ν)}
    (h : ∀ e ∈ es, e.1 ≠ key) : (field key (.required value)).dec es = none := by
  show (valueAt key es).bind _ = none
  rw [valueAt_of_notMem h]
  rfl

/-- What is written of a value is read as the value made of its parts. -/
theorem inject_dec_enc (codec : RecordCodec κ ν α) {make : α → β} {parts : β → Option α}
    {parts_make : ∀ a, parts (make a) = some a} {a : α} {b : β} (hparts : parts b = some a)
    (h : codec.Fits a) (hlossless : codec.Lossless a) : (codec.inject make parts parts_make).dec
      ((codec.inject make parts parts_make).enc b) = some (make a) := by
  show (codec.dec ((parts b).elim [] codec.enc)).map make = some (make a)
  rw [hparts, Option.elim_some, codec.dec_enc h hlossless]
  rfl

theorem made_of_dec {codec : RecordCodec κ ν α} {make : α → β} {parts : β → Option α}
    {parts_make : ∀ a, parts (make a) = some a} {es : List (κ × ν)} {b : β}
    (h : (codec.inject make parts parts_make).dec es = some b) :
    ∃ a, codec.dec es = some a ∧ make a = b := Option.map_eq_some_iff.mp h

section Tagged

variable {ι : Type}

/-- What is written behind the name of a record is read as that record. -/
theorem tagged_back {tag : κ} {name : ValueCodec ν ι} {kind : β → ι} {variant : ι → RecordCodec κ ν β}
    (fresh : ∀ i, tag ∉ (variant i).keys) (name_fits : ∀ i, name.Fits i)
    (name_lossless : ∀ i, name.Lossless i) (b : β) :
    let es := (tag, name.enc (kind b)) :: (variant (kind b)).enc b
    (((valueAt tag es).bind (FieldCodec.required name).dec).bind fun i => (variant i).dec es) =
      (variant (kind b)).dec ((variant (kind b)).enc b) := by
  intro es
  have hfresh : ∀ e ∈ (variant (kind b)).enc b, e.1 ≠ tag :=
    fun e he htag => fresh (kind b) (htag ▸ (variant (kind b)).enc_keys b e he)
  have hvariant : (variant (kind b)).dec
      ([(tag, name.enc (kind b))] ++ (variant (kind b)).enc b) =
        (variant (kind b)).dec ((variant (kind b)).enc b) :=
    (variant (kind b)).dec_prepend (by simpa using fresh (kind b))
  rw [valueAt_cons_self hfresh]
  show ((name.dec (name.enc (kind b))).bind _) = _
  rw [name.dec_enc (name_fits _) (name_lossless _)]
  exact hvariant

/-- One of several records, with an entry that names which. -/
def tagged (tag : κ) (name : ValueCodec ν ι) (kind : β → ι) (variant : ι → RecordCodec κ ν β)
    (all : List ι) (complete : ∀ i, i ∈ all) (fresh : ∀ i, tag ∉ (variant i).keys)
    (name_fits : ∀ i, name.Fits i) (name_lossless : ∀ i, name.Lossless i)
    (kind_of_dec : ∀ {i es b}, (variant i).dec es = some b → kind b = i) : RecordCodec κ ν β where
  keys := tag :: all.flatMap fun i => (variant i).keys
  uses b := tag :: (variant (kind b)).uses b
  enc b := (tag, name.enc (kind b)) :: (variant (kind b)).enc b
  dec es := ((valueAt tag es).bind (FieldCodec.required name).dec).bind fun i => (variant i).dec es
  -- which record it is cannot be told without the tag
  decSeq _ := none
  Fits b := (variant (kind b)).Fits b
  Lossless b := (variant (kind b)).Lossless b
  dec_enc {b} h hlossless := by
    rw [tagged_back fresh name_fits name_lossless, (variant (kind b)).dec_enc h hlossless]
  fits_of_dec {es b} h := by
    obtain ⟨i, -, hb⟩ := Option.bind_eq_some_iff.mp h
    rw [kind_of_dec hb]
    exact (variant i).fits_of_dec hb
  lossless_of_back {b} h := by
    rw [tagged_back fresh name_fits name_lossless] at h
    exact (variant (kind b)).lossless_of_back h
  enc_keys b e he := by
    rcases List.mem_cons.mp he with rfl | he
    · exact List.mem_cons_self
    · apply List.mem_cons_of_mem
      exact List.mem_flatMap.mpr ⟨kind b, complete _, (variant (kind b)).enc_keys b e he⟩
  uses_keys b k hk := by
    rcases List.mem_cons.mp hk with rfl | hk
    · exact List.mem_cons_self
    · apply List.mem_cons_of_mem
      exact List.mem_flatMap.mpr ⟨kind b, complete _, (variant (kind b)).uses_keys b k hk⟩
  once {es b} h k hk := by
    obtain ⟨i, hi, hb⟩ := Option.bind_eq_some_iff.mp h
    obtain rfl := kind_of_dec hb
    rcases List.mem_cons.mp hk with rfl | hk
    · obtain ⟨v, hv, -⟩ := Option.bind_eq_some_iff.mp hi
      rw [hv]
      rfl
    · exact (variant (kind b)).once hb k hk
  dec_of_uses {es es' b} h hkeys := by
    obtain ⟨i, hi, hb⟩ := Option.bind_eq_some_iff.mp h
    obtain rfl := kind_of_dec hb
    apply Option.bind_eq_some_iff.mpr
    refine ⟨kind b, ?_, ?_⟩
    · rw [hkeys tag List.mem_cons_self]
      exact hi
    · exact (variant (kind b)).dec_of_uses hb fun k hk => hkeys k (List.mem_cons_of_mem _ hk)
  dec_of_decSeq := nofun

end Tagged

end RecordCodec

end GpuiAgent.Framework
