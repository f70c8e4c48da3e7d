import GpuiAgent.Framework.Lines
import GpuiAgent.Framework.Utf8
import GpuiAgent.Tree.UiTree

namespace GpuiAgent

open Framework

namespace UiNode

/-- The value as the fingerprint takes it: a hash of its text, zero for none. -/
def valueHash (a : NodeFields) : UInt64 :=
  match a.value with
  | none => 0
  | some v => feed OFF (utf8 v)

/-- The optional flag in one byte. -/
def checkedByte (checked : Option Bool) : UInt8 :=
  match checked with
  | none => 0
  | some false => 1
  | some true => 2

/-- The texts, each closed by the byte `0xff`. -/
def closedTexts (texts : List String) : List UInt8 :=
  texts.flatMap fun text => utf8 text ++ [0xff]

/-- The bytes that `fingerprint` feeds to its running hash, in order. -/
def fingerprintStream (n : UiNode) (parentId : Option String) : List UInt8 :=
  closedTexts [n.label.id, n.label.role, n.label.name] ++
    [n.label.enabled.toUInt8, n.label.visible.toUInt8, checkedByte n.label.checked] ++
    leBytes (valueHash n.label) ++ closedTexts n.label.states ++ parentId.elim [] utf8 ++
    [parentId.isSome.toUInt8]

theorem feed_append (h : UInt64) (bytes more : List UInt8) :
    feed h (bytes ++ more) = feed (feed h bytes) more :=
  List.foldl_append

theorem feed_closedTexts (texts : List String) (h : UInt64) :
    texts.foldl (fun h text => feed (feed h (utf8 text)) [0xff]) h = feed h (closedTexts texts) := by
  induction texts generalizing h with
  | nil => rfl
  | cons text texts ih =>
    have hcons : closedTexts (text :: texts) = utf8 text ++ [0xff] ++ closedTexts texts := rfl
    rw [List.foldl_cons, ih, hcons, feed_append, feed_append]

/-- The fingerprint hashes the stream. -/
theorem fingerprint_eq_feed (n : UiNode) (parentId : Option String) :
    fingerprint n.label parentId = feed OFF (fingerprintStream n parentId) := by
  have hflags (h : UInt64) (enabled visible checked : UInt8) :
      feed (feed h [enabled, visible]) [checked] = feed h [enabled, visible, checked] :=
    (feed_append h [enabled, visible] [checked]).symm
  unfold fingerprintStream
  simp only [feed_append, ← hflags, ← feed_closedTexts]
  cases parentId with
  | none => rfl
  | some parent => rfl

/-- Numbers with the same `n` low digits agree below the next one. -/
theorem mod_pow_eq_of_digits {base v w : Nat} (n : Nat)
    (h : ∀ i < n, v / base ^ i % base = w / base ^ i % base) : v % base ^ n = w % base ^ n := by
  induction n with
  | zero => rw [pow_zero, Nat.mod_one, Nat.mod_one]
  | succ n ih =>
    rw [pow_succ, Nat.mod_mul, Nat.mod_mul, ih fun i hi => h i (Nat.lt_succ_of_lt hi),
      h n (Nat.lt_succ_self n)]

theorem leBytes_injective {v w : UInt64} (h : leBytes v = leBytes w) : v = w := by
  have hbyte : ∀ i < 8, v.toNat / 256 ^ i % 256 = w.toNat / 256 ^ i % 256 := by
    intro i hi
    have hbytes := congrArg (fun bytes : List UInt8 => bytes[i]?.map UInt8.toNat) h
    simpa [leBytes, hi, Nat.mod_eq_of_lt (show 8 * i < 64 by omega),
      Nat.shiftRight_eq_div_pow, pow_mul] using hbytes
  have hmod := mod_pow_eq_of_digits 8 hbyte
  rw [show 256 ^ 8 = 2 ^ 64 by decide,
    Nat.mod_eq_of_lt v.toNat_lt, Nat.mod_eq_of_lt w.toNat_lt] at hmod
  exact UInt64.toNat_inj.mp hmod

theorem checkedByte_injective {a b : Option Bool} (h : checkedByte a = checkedByte b) : a = b := by
  revert h
  rcases a with _ | _ | _ <;> rcases b with _ | _ | _ <;> decide

theorem toUInt8_injective {a b : Bool} (h : a.toUInt8 = b.toUInt8) : a = b := by
  revert h
  cases a <;> cases b <;> decide

theorem closedTexts_eq (texts : List String) :
    closedTexts texts = (texts.map utf8).flatMap fun field => field ++ [0xff] := by
  rw [closedTexts, List.flatMap_map]

theorem notMem_utf8 {texts : List String} : ∀ field ∈ texts.map utf8, 0xff ∉ field := by
  intro field hfield
  obtain ⟨text, -, rfl⟩ := List.mem_map.mp hfield
  exact Utf8.notMem_toUTF8 text

theorem notMem_parent (parentId : Option String) : 0xff ∉ parentId.elim [] utf8 := by
  cases parentId with
  | none => exact List.not_mem_nil
  | some parent => exact Utf8.notMem_toUTF8 parent

/-- The states and the parent are told apart: the tag is the last byte, and a state is closed. -/
theorem tail_injective {states states' : List String} {parent parent' : Option String}
    (h : closedTexts states ++ parent.elim [] utf8 ++ [parent.isSome.toUInt8] =
      closedTexts states' ++ parent'.elim [] utf8 ++ [parent'.isSome.toUInt8]) :
    states = states' ∧ parent = parent' := by
  obtain ⟨htexts, htag⟩ := List.append_inj' h rfl
  have hsome := toUInt8_injective (List.cons.inj htag).1
  rw [closedTexts_eq, closedTexts_eq] at htexts
  obtain ⟨hstates, hparent⟩ := fields_append_inj notMem_utf8 notMem_utf8 (notMem_parent parent)
    (notMem_parent parent') htexts
  refine ⟨List.map_injective_iff.mpr (fun _ _ => Utf8.toUTF8_toList_injective) hstates, ?_⟩
  cases parent with
  | none => exact (Option.not_isSome_iff_eq_none.mp (by rw [← hsome]; simp)).symm
  | some text =>
    obtain ⟨text', rfl⟩ := Option.isSome_iff_exists.mp hsome.symm
    exact congrArg some (Utf8.toUTF8_toList_injective hparent)

/-- What a fingerprint is taken of. -/
structure SameContent (n m : UiNode) (p q : Option String) : Prop where
  id : n.label.id = m.label.id
  role : n.label.role = m.label.role
  name : n.label.name = m.label.name
  enabled : n.label.enabled = m.label.enabled
  visible : n.label.visible = m.label.visible
  checked : n.label.checked = m.label.checked
  value : valueHash n.label = valueHash m.label
  states : n.label.states = m.label.states
  parent : p = q

theorem fingerprintStream_eq_cons (n : UiNode) (parentId : Option String) :
    fingerprintStream n parentId =
      utf8 n.label.id ++ 0xff :: (utf8 n.label.role ++ 0xff :: (utf8 n.label.name ++ 0xff ::
        n.label.enabled.toUInt8 :: n.label.visible.toUInt8 :: checkedByte n.label.checked ::
          (leBytes (valueHash n.label) ++ (closedTexts n.label.states ++
            parentId.elim [] utf8 ++ [parentId.isSome.toUInt8])))) := by
  simp [fingerprintStream, closedTexts]

theorem sameContent_of_fingerprintStream {n m : UiNode} {p q : Option String}
    (h : fingerprintStream n p = fingerprintStream m q) : SameContent n m p q := by
  have hutf8 (text : String) : 0xff ∉ utf8 text := Utf8.notMem_toUTF8 text
  rw [fingerprintStream_eq_cons, fingerprintStream_eq_cons] at h
  obtain ⟨hid, h⟩ := append_sep_inj (hutf8 _) (hutf8 _) h
  obtain ⟨hrole, h⟩ := append_sep_inj (hutf8 _) (hutf8 _) h
  obtain ⟨hname, h⟩ := append_sep_inj (hutf8 _) (hutf8 _) h
  obtain ⟨henabled, h⟩ := List.cons.inj h
  obtain ⟨hvisible, h⟩ := List.cons.inj h
  obtain ⟨hchecked, h⟩ := List.cons.inj h
  -- the value hash takes eight bytes
  obtain ⟨hvalue, h⟩ := List.append_inj h (by simp [leBytes])
  obtain ⟨hstates, hparent⟩ := tail_injective h
  exact ⟨Utf8.toUTF8_toList_injective hid, Utf8.toUTF8_toList_injective hrole,
    Utf8.toUTF8_toList_injective hname, toUInt8_injective henabled, toUInt8_injective hvisible,
    checkedByte_injective hchecked, leBytes_injective hvalue, hstates, hparent⟩

theorem SameContent.fingerprintStream {n m : UiNode} {p q : Option String}
    (h : SameContent n m p q) : fingerprintStream n p = fingerprintStream m q := by
  rw [fingerprintStream_eq_cons, fingerprintStream_eq_cons, h.id, h.role, h.name, h.enabled,
    h.visible, h.checked, h.value, h.states, h.parent]

/-- A fingerprint hashes a stream that determines, and is determined by, what it is taken of. -/
theorem fingerprint_stream_injective (n m : UiNode) (p q : Option String) :
    fingerprint n.label p = feed OFF (fingerprintStream n p) ∧
      (UiNode.fingerprintStream n p = UiNode.fingerprintStream m q ↔ SameContent n m p q) :=
  ⟨fingerprint_eq_feed n p, sameContent_of_fingerprintStream, SameContent.fingerprintStream⟩

end UiNode

end GpuiAgent
