import GpuiAgent.Framework.RustString
import Std.Data.TreeMap.Lemmas

namespace GpuiAgent

open Framework

inductive SchemaKind where
  | protocol | invoke | id
  deriving DecidableEq

inductive Effect where
  | read | write | exit
  deriving DecidableEq

/-- What the registry knows of an operation. `args` are the names of its declared arguments. -/
structure OpSchema where
  name : String
  kind : SchemaKind
  effects : List Effect
  idempotent : Bool
  required : List String
  args : List String
  deriving DecidableEq

namespace OpSchema

def nameChar (c : Char) : Bool := c.isAlphanum || c = '_' || c = '-' || c = '.'

theorem nameChar_toNat {c : Char} (h : nameChar c = true) :
    45 ≤ c.toNat ∧ c.toNat ≤ 122 ∧ c.toNat ≠ 47 := by
  unfold nameChar Char.isAlphanum Char.isAlpha Char.isUpper Char.isLower at h
  simp only [Char.isDigit, Bool.or_eq_true, Bool.and_eq_true, decide_eq_true_eq, ge_iff_le,
    UInt32.le_iff_toNat_le, Char.toNat_val, ← Char.toNat_inj] at h
  have hletters : 'A'.toNat = 65 ∧ 'Z'.toNat = 90 ∧ 'a'.toNat = 97 ∧ 'z'.toNat = 122 := by decide
  have hothers : '0'.toNat = 48 ∧ '9'.toNat = 57 ∧ '_'.toNat = 95 ∧ '-'.toNat = 45 ∧
      '.'.toNat = 46 := by decide
  omega

/-- The required inputs that need no entry among the arguments. -/
def builtinInputs : List String := ["target", "text", "value", "key", "name", "binding", "scope"]

def validate (schema : OpSchema) : Except String Unit := do
  if (trim schema.name).isEmpty then throw "schema name cannot be empty"
  if schema.name.toList.any fun c => !nameChar c then
    throw s!"schema name `{schema.name}` must be alphanumeric plus _-. "
  match schema.required.find? fun req =>
    !schema.args.contains req && !builtinInputs.contains req with
  | some req => throw s!"schema `{schema.name}` lists required `{req}` with no args entry"
  | none => return

/-- The letters of a valid name. -/
theorem nameChar_of_validate {schema : OpSchema} (h : schema.validate = .ok ()) :
    ∀ c ∈ schema.name.toList, nameChar c = true := by
  by_contra hbad
  have hany : (schema.name.toList.any fun c => !nameChar c) = true := by
    rw [List.any_eq_true]
    push Not at hbad
    obtain ⟨c, hc, hname⟩ := hbad
    exact ⟨c, hc, by simpa using hname⟩
  unfold validate at h
  simp only [hany, if_true] at h
  split_ifs at h <;> cases h

end OpSchema

/-- The schemas by their names, each of which passes its own check. -/
structure Registry where
  schemas : Std.TreeMap String OpSchema
  named : ∀ (name : String) (schema : OpSchema), schemas[name]? = some schema → schema.name = name
  valid : ∀ (name : String) (schema : OpSchema), schemas[name]? = some schema →
    schema.validate = .ok ()

namespace Registry

def new : Registry where
  schemas := ∅
  named := fun _ _ h => by simp at h
  valid := fun _ _ h => by simp at h

def get (reg : Registry) (name : String) : Option OpSchema := reg.schemas[name]?

/-- Add a schema that has passed its check. -/
def insertValid (reg : Registry) (schema : OpSchema) (ok : schema.validate = .ok ()) :
    Registry where
  schemas := reg.schemas.insert schema.name schema
  named := by
    intro name other h
    rw [Std.TreeMap.getElem?_insert] at h
    split_ifs at h with heq
    · obtain rfl := Option.some.inj h
      exact Std.LawfulEqCmp.eq_of_compare heq
    · exact reg.named name other h
  valid := by
    intro name other h
    rw [Std.TreeMap.getElem?_insert] at h
    split_ifs at h
    · obtain rfl := Option.some.inj h
      exact ok
    · exact reg.valid name other h

def insert (reg : Registry) (schema : OpSchema) : Except String Registry :=
  match ok : schema.validate with
  | .error error => .error error
  | .ok () => .ok (reg.insertValid schema ok)

/-- Add schemas that have all passed their check. -/
def insertAll (reg : Registry) : (schemas : List OpSchema) →
    (∀ schema ∈ schemas, schema.validate = .ok ()) → Registry
  | [], _ => reg
  | schema :: schemas, ok =>
    (reg.insertValid schema (ok schema List.mem_cons_self)).insertAll schemas fun s hs =>
      ok s (List.mem_cons_of_mem _ hs)

/-- Add schemas whose names are new. -/
def mergeSchemas (reg : Registry) : List OpSchema → Except String Registry
  | [] => .ok reg
  | schema :: schemas => do
    if (reg.get schema.name).isSome then throw s!"duplicate schema `{schema.name}`"
    mergeSchemas (← reg.insert schema) schemas

def merge (reg other : Registry) : Except String Registry :=
  reg.mergeSchemas (other.schemas.toList.map Prod.snd)

section Get

variable {reg reg' : Registry} {schema : OpSchema}

theorem get_insertValid (ok : schema.validate = .ok ()) (name : String) :
    (reg.insertValid schema ok).get name =
      if schema.name = name then some schema else reg.get name := by
  unfold get insertValid
  rw [Std.TreeMap.getElem?_insert]
  simp

theorem get_name {name : String} (h : reg.get name = some schema) : schema.name = name :=
  reg.named name schema h

theorem insert_eq_ok (h : reg.insert schema = .ok reg') (name : String) :
    reg'.get name = if schema.name = name then some schema else reg.get name := by
  unfold insert at h
  split at h
  next => cases h
  next ok =>
    obtain rfl := Except.ok.inj h
    exact get_insertValid ok name

theorem insert_of_valid (ok : schema.validate = .ok ()) :
    reg.insert schema = .ok (reg.insertValid schema ok) := by
  unfold insert
  split
  next error failed => cases ok.symm.trans failed
  next => rfl

/-- Inserting valid schemas one by one never fails. -/
theorem foldlM_insert {schemas : List OpSchema} : ∀ {reg : Registry}
    (ok : ∀ schema ∈ schemas, schema.validate = .ok ()),
    schemas.foldlM insert reg = .ok (reg.insertAll schemas ok) := by
  induction schemas with
  | nil => exact fun _ => rfl
  | cons schema schemas ih =>
    intro reg ok
    rw [List.foldlM_cons, insert_of_valid (ok schema List.mem_cons_self)]
    exact ih fun s hs => ok s (List.mem_cons_of_mem _ hs)

theorem get_insertAll {schemas : List OpSchema} : ∀ {reg : Registry}
    (ok : ∀ schema ∈ schemas, schema.validate = .ok ()), (schemas.map OpSchema.name).Nodup →
    ∀ name, (reg.insertAll schemas ok).get name =
      ((schemas.find? fun schema => schema.name = name).or (reg.get name)) := by
  induction schemas with
  | nil =>
    intro reg ok _ name
    rfl
  | cons schema schemas ih =>
    intro reg ok hnodup name
    rw [List.map_cons, List.nodup_cons] at hnodup
    rw [insertAll, ih _ hnodup.2, get_insertValid, List.find?_cons]
    by_cases heq : schema.name = name
    · subst heq
      have hrest : schemas.find? (fun s => s.name = schema.name) = none := by
        rw [List.find?_eq_none]
        intro s hs hname
        exact hnodup.1 (List.mem_map.mpr ⟨s, hs, of_decide_eq_true hname⟩)
      simp [hrest]
    · simp [heq]

/-- Merging adds schemas and leaves those that are there. -/
theorem mergeSchemas_get {schemas : List OpSchema} : ∀ {reg : Registry},
    reg.mergeSchemas schemas = .ok reg' → ∀ name known, reg.get name = some known →
      reg'.get name = some known := by
  induction schemas with
  | nil =>
    intro reg h name known hknown
    obtain rfl := Except.ok.inj h
    exact hknown
  | cons schema schemas ih =>
    intro reg h name known hknown
    unfold mergeSchemas at h
    by_cases hdup : (reg.get schema.name).isSome = true
    · rw [if_pos hdup] at h
      cases h
    · rw [if_neg hdup] at h
      cases hinsert : reg.insert schema with
      | error error =>
        rw [hinsert] at h
        cases h
      | ok next =>
        rw [hinsert] at h
        refine ih h name known ?_
        rw [insert_eq_ok hinsert name]
        have hne : schema.name ≠ name := by
          rintro rfl
          rw [hknown] at hdup
          exact hdup rfl
        rw [if_neg hne, hknown]

theorem merge_get {other : Registry} (h : reg.merge other = .ok reg') {name : String}
    (known : reg.get name = some schema) : reg'.get name = some schema :=
  mergeSchemas_get h name schema known

/-- The letters of a registered name. -/
theorem nameChar_of_get {name : String} (h : reg.get name = some schema) :
    ∀ c ∈ name.toList, OpSchema.nameChar c = true := by
  rw [← get_name h]
  exact OpSchema.nameChar_of_validate (reg.valid name schema h)

end Get

end Registry

def protocol (name : String) (effects : List Effect) (idempotent : Bool) (required : List String) :
    OpSchema :=
  { name, kind := .protocol, effects, idempotent, required, args := [] }

/-- The schemas of the protocol's operations. -/
def protocolOps : List OpSchema :=
  [protocol "hello" [.read] true [],
    protocol "wait" [.read] true [],
    protocol "wait_until" [.read] true ["target"],
    protocol "snapshot" [.read] true [],
    protocol "revision" [.read] true [],
    protocol "screenshot" [.read] true [],
    protocol "click" [.write] false ["target"],
    protocol "type" [.write] false ["target", "text"],
    protocol "set_value" [.write] true ["target", "value"],
    protocol "key" [.write] false ["target", "key"],
    protocol "keybinding" [.write] false ["binding", "scope"],
    protocol "keybindings" [.read] true [],
    protocol "assert" [.read] true ["target"],
    protocol "invoke" [.write] false ["name"],
    protocol "shutdown" [.exit] false []]

theorem validate_protocolOps : ∀ schema ∈ protocolOps, schema.validate = .ok () := by
  decide +kernel

/-- Protocol ops only; the schemas of an app are merged into it. -/
def protocolRegistry : Registry := Registry.new.insertAll protocolOps validate_protocolOps

/-- Inserting the protocol's schemas one by one gives it. -/
theorem foldlM_insert_protocolOps :
    protocolOps.foldlM Registry.insert .new = .ok protocolRegistry :=
  Registry.foldlM_insert validate_protocolOps

theorem protocolRegistry_get (name : String) :
    protocolRegistry.get name = protocolOps.find? fun schema => schema.name = name := by
  unfold protocolRegistry
  rw [Registry.get_insertAll _ (by decide +kernel)]
  have hnew : Registry.new.get name = none := by simp [Registry.new, Registry.get]
  rw [hnew, Option.or_none]

/-- The registries that an app's schema files give. -/
inductive Loaded : Registry → Prop
  | protocol : Loaded protocolRegistry
  | merge {reg file reg' : Registry} : Loaded reg → reg.merge file = .ok reg' → Loaded reg'

/-- No schema file changes what the registry knows of the protocol. -/
theorem Loaded.get_protocol {reg : Registry} (h : Loaded reg) {name : String} {schema : OpSchema}
    (known : (protocolOps.find? fun schema => schema.name = name) = some schema) :
    reg.get name = some schema := by
  induction h with
  | protocol => rw [protocolRegistry_get, known]
  | merge _ hmerge ih => exact Registry.merge_get hmerge ih

end GpuiAgent
