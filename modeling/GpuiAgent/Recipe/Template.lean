import GpuiAgent.Recipe.Placeholder

namespace GpuiAgent

open Framework

/-- A piece of a string with placeholders. -/
inductive Segment where
  | char (c : Char)
  | param (name : String)

namespace Segment

def paramName : Segment → Option String
  | char _ => none
  | param name => some name

def fill (value : String → String) : Segment → List Char
  | char c => [c]
  | param name => (value name).toList

end Segment

def segmentsFrom (skip : Nat) : List Char → List Segment
  | [] => []
  | c :: cs => match skip with
    | skip + 1 => segmentsFrom skip cs
    | 0 => match if c = '$' then parsePlaceholder cs else none with
      | some (name, used) => .param name :: segmentsFrom used cs
      | none => .char c :: segmentsFrom 0 cs

/-- The string with a value in place of each placeholder. -/
def fillString (value : String → String) (s : String) : String :=
  .ofList ((segmentsFrom 0 s.toList).flatMap (Segment.fill value))

/-- The values of a parameter assignment, empty where there is none. -/
def Params.value (set : Params) (name : String) : String := set[name]?.getD ""

/-- The assignment has a value for each of these names. -/
def Params.Covers (set : Params) (names : List String) : Prop := ∀ name ∈ names, set[name]?.isSome

section Strings

variable {set : Params}

theorem collectPlaceholdersFrom_eq (cs : List Char) : ∀ skip,
    collectPlaceholdersFrom skip cs = (segmentsFrom skip cs).filterMap Segment.paramName := by
  induction cs with
  | nil => exact fun skip => rfl
  | cons c cs ih =>
    intro skip
    unfold collectPlaceholdersFrom segmentsFrom
    cases skip with
    | succ skip => exact ih skip
    | zero =>
      dsimp only
      cases (if c = '$' then parsePlaceholder cs else none) with
      | none => rw [ih 0, List.filterMap_cons_none rfl]
      | some found =>
        obtain ⟨name, used⟩ := found
        dsimp only
        rw [ih used]
        rfl

/-- Substitution fills the placeholders that have a value. -/
theorem substituteFrom_ok (cs : List Char) : ∀ skip,
    set.Covers (collectPlaceholdersFrom skip cs) →
      substituteFrom set skip cs =
        .ok ((segmentsFrom skip cs).flatMap (Segment.fill set.value)) := by
  induction cs with
  | nil => exact fun skip _ => rfl
  | cons c cs ih =>
    intro skip covered
    unfold collectPlaceholdersFrom at covered
    unfold substituteFrom segmentsFrom
    cases skip with
    | succ skip => exact ih skip covered
    | zero =>
      dsimp only at covered ⊢
      cases found : if c = '$' then parsePlaceholder cs else none with
      | none =>
        rw [found] at covered
        rw [ih 0 covered]
        rfl
      | some found' =>
        obtain ⟨name, used⟩ := found'
        rw [found] at covered
        obtain ⟨value, hvalue⟩ := Option.isSome_iff_exists.mp (covered name List.mem_cons_self)
        have hrest := ih used fun n hn => covered n (List.mem_cons_of_mem _ hn)
        dsimp only
        rw [hvalue, hrest, List.flatMap_cons, Segment.fill, Params.value, hvalue]
        rfl

theorem fill_of_no_placeholder (value : String → String) (cs : List Char) :
    collectPlaceholdersFrom 0 cs = [] →
      (segmentsFrom 0 cs).flatMap (Segment.fill value) = cs := by
  induction cs with
  | nil => exact fun _ => rfl
  | cons c cs ih =>
    intro h
    unfold collectPlaceholdersFrom at h
    unfold segmentsFrom
    dsimp only at h ⊢
    cases found : if c = '$' then parsePlaceholder cs else none with
    | none =>
      rw [found] at h
      dsimp only
      rw [List.flatMap_cons, ih h]
      rfl
    | some _ =>
      rw [found] at h
      cases h

/-- A string without placeholders is filled with itself. -/
theorem fillString_of_no_placeholder (value : String → String) {s : String}
    (h : stringHasPlaceholder s = false) : fillString value s = s := by
  have hnone : collectPlaceholdersFrom 0 s.toList = [] := by
    simpa [stringHasPlaceholder, collectPlaceholders] using h
  rw [fillString, fill_of_no_placeholder value _ hnone, String.ofList_toList]

theorem collectPlaceholdersFrom_of_no_dollar (cs : List Char) (h : '$' ∉ cs) :
    collectPlaceholdersFrom 0 cs = [] := by
  induction cs with
  | nil => rfl
  | cons c cs ih =>
    rw [List.mem_cons, not_or] at h
    unfold collectPlaceholdersFrom
    rw [if_neg (Ne.symm h.1)]
    exact ih h.2

theorem stringHasPlaceholder_of_no_dollar {s : String} (h : '$' ∉ s.toList) :
    stringHasPlaceholder s = false := by
  simp [stringHasPlaceholder, collectPlaceholders, collectPlaceholdersFrom_of_no_dollar _ h]

theorem substituteString_ok {s : String} (covered : set.Covers (collectPlaceholders s)) :
    substituteString s set = .ok (fillString set.value s) := by
  unfold substituteString
  by_cases hdollar : '$' ∈ s.toList
  · rw [if_neg (by simpa using hdollar), substituteFrom_ok _ 0 covered]
    rfl
  · rw [if_pos (by simpa using hdollar),
      fillString_of_no_placeholder _ (stringHasPlaceholder_of_no_dollar hdollar)]

theorem substituteOption_ok {s : Option String}
    (covered : set.Covers (collectPlaceholdersInOption s)) :
    substituteOption s set = .ok (s.map (fillString set.value)) := by
  cases s with
  | none => rfl
  | some s =>
    rw [substituteOption, substituteString_ok covered]
    rfl

end Strings

mutual
def Json.mapText (f : String → String) : Json → Json
  | .string s => .string (f s)
  | .array xs => .array (mapTexts f xs)
  | .object fields => .object (mapTextFields f fields)
  | .null => .null
  | .bool b => .bool b
  | .number n => .number n
def Json.mapTexts (f : String → String) : List Json → List Json
  | [] => []
  | x :: xs => x.mapText f :: mapTexts f xs
def Json.mapTextFields (f : String → String) : List (String × Json) → List (String × Json)
  | [] => []
  | (k, v) :: fields => (k, v.mapText f) :: mapTextFields f fields
end

section Values

variable {set : Params}

theorem Params.Covers.append {names more : List String} (h : set.Covers (names ++ more)) :
    set.Covers names ∧ set.Covers more :=
  ⟨fun name hn => h name (List.mem_append_left _ hn),
    fun name hn => h name (List.mem_append_right _ hn)⟩

mutual
theorem substituteValue_ok : (v : Json) → set.Covers (collectPlaceholdersInValue v) →
    substituteValue set v = .ok (v.mapText (fillString set.value))
  | .string s, covered => by
    rw [substituteValue, substituteString_ok covered]
    rfl
  | .array xs, covered => by
    rw [substituteValue, substituteArray_ok xs covered]
    rfl
  | .object fields, covered => by
    rw [substituteValue, substituteFields_ok fields covered]
    rfl
  | .null, _ => rfl
  | .bool _, _ => rfl
  | .number _, _ => rfl
theorem substituteArray_ok : (xs : List Json) → set.Covers (collectPlaceholdersInArray xs) →
    substituteArray set xs = .ok (Json.mapTexts (fillString set.value) xs)
  | [], _ => rfl
  | x :: xs, covered => by
    rw [substituteArray, substituteValue_ok x covered.append.1,
      substituteArray_ok xs covered.append.2]
    rfl
theorem substituteFields_ok : (fields : List (String × Json)) →
    set.Covers (collectPlaceholdersInFields fields) →
    substituteFields set fields = .ok (Json.mapTextFields (fillString set.value) fields)
  | [], _ => rfl
  | (k, v) :: fields, covered => by
    rw [substituteFields, substituteValue_ok v covered.append.1,
      substituteFields_ok fields covered.append.2]
    rfl
end

end Values

section Literal

variable (value : String → String)

theorem fillString_of_collect_nil {s : String} (h : collectPlaceholders s = []) :
    fillString value s = s :=
  fillString_of_no_placeholder value (by simp [stringHasPlaceholder, h])

theorem map_fillString_of_collect_nil {s : Option String} (h : collectPlaceholdersInOption s = []) :
    s.map (fillString value) = s := by
  cases s with
  | none => rfl
  | some s => rw [Option.map_some, fillString_of_collect_nil value h]

mutual
theorem mapText_of_collect_nil : (v : Json) → collectPlaceholdersInValue v = [] →
    v.mapText (fillString value) = v
  | .string s, h => by rw [Json.mapText, fillString_of_collect_nil value h]
  | .array xs, h => by rw [Json.mapText, mapTexts_of_collect_nil xs h]
  | .object fields, h => by rw [Json.mapText, mapTextFields_of_collect_nil fields h]
  | .null, _ => rfl
  | .bool _, _ => rfl
  | .number _, _ => rfl
theorem mapTexts_of_collect_nil : (xs : List Json) → collectPlaceholdersInArray xs = [] →
    Json.mapTexts (fillString value) xs = xs
  | [], _ => rfl
  | x :: xs, h => by
    obtain ⟨hx, hxs⟩ := List.append_eq_nil_iff.mp h
    rw [Json.mapTexts, mapText_of_collect_nil x hx, mapTexts_of_collect_nil xs hxs]
theorem mapTextFields_of_collect_nil : (fields : List (String × Json)) →
    collectPlaceholdersInFields fields = [] → Json.mapTextFields (fillString value) fields = fields
  | [], _ => rfl
  | (k, v) :: fields, h => by
    obtain ⟨hv, hfields⟩ := List.append_eq_nil_iff.mp h
    rw [Json.mapTextFields, mapText_of_collect_nil v hv,
      mapTextFields_of_collect_nil fields hfields]
end

end Literal

def AssertSpec.mapText (f : String → String) (spec : AssertSpec) : AssertSpec :=
  { spec with
    target := f spec.target
    name := spec.name.map f
    value := spec.value.map f
    role := spec.role.map f }

/-- The op with `f` applied to every text that may hold a placeholder. -/
def Op.mapText (f : String → String) : Op → Op
  | .waitUntil timeoutMs spec => .waitUntil timeoutMs (spec.mapText f)
  | .assert spec => .assert (spec.mapText f)
  | .click target delivery fingerprint => .click (f target) delivery fingerprint
  | .type target text delivery fingerprint => .type (f target) (f text) delivery fingerprint
  | .setValue target value fingerprint => .setValue (f target) (f value) fingerprint
  | .key target token delivery fingerprint => .key (f target) (f token) delivery fingerprint
  | .keybinding binding chord scope confirm activate =>
    .keybinding (f binding) (chord.map f) scope confirm activate
  | .invoke name args => .invoke (f name) (args.mapText f)
  | .screenshot path mode target maxHeightPx =>
    .screenshot (path.map f) mode (target.map f) maxHeightPx
  | op => op

/-- An op without placeholders is filled with itself. -/
theorem Op.mapText_of_collect_nil (value : String → String) {op : Op}
    (h : collectPlaceholdersInOp op = []) : op.mapText (fillString value) = op := by
  have spec_eq {spec : AssertSpec} (h : spec.collectPlaceholders = []) :
      spec.mapText (fillString value) = spec := by
    obtain ⟨h, hrole⟩ := List.append_eq_nil_iff.mp h
    obtain ⟨h, hvalue⟩ := List.append_eq_nil_iff.mp h
    obtain ⟨htarget, hname⟩ := List.append_eq_nil_iff.mp h
    rw [AssertSpec.mapText, fillString_of_collect_nil value htarget,
      map_fillString_of_collect_nil value hname, map_fillString_of_collect_nil value hvalue,
      map_fillString_of_collect_nil value hrole]
  cases op with
  | waitUntil timeoutMs spec => rw [mapText, spec_eq h]
  | assert spec => rw [mapText, spec_eq h]
  | click target delivery fingerprint => rw [mapText, fillString_of_collect_nil value h]
  | type target text delivery fingerprint =>
    obtain ⟨htarget, htext⟩ := List.append_eq_nil_iff.mp h
    rw [mapText, fillString_of_collect_nil value htarget, fillString_of_collect_nil value htext]
  | setValue target text fingerprint =>
    obtain ⟨htarget, htext⟩ := List.append_eq_nil_iff.mp h
    rw [mapText, fillString_of_collect_nil value htarget, fillString_of_collect_nil value htext]
  | key target token delivery fingerprint =>
    obtain ⟨htarget, htoken⟩ := List.append_eq_nil_iff.mp h
    rw [mapText, fillString_of_collect_nil value htarget, fillString_of_collect_nil value htoken]
  | keybinding binding chord scope confirm activate =>
    obtain ⟨hbinding, hchord⟩ := List.append_eq_nil_iff.mp h
    rw [mapText, fillString_of_collect_nil value hbinding,
      map_fillString_of_collect_nil value hchord]
  | invoke name args =>
    obtain ⟨hname, hargs⟩ := List.append_eq_nil_iff.mp h
    rw [mapText, fillString_of_collect_nil value hname,
      GpuiAgent.mapText_of_collect_nil value args hargs]
  | screenshot path mode target maxHeightPx =>
    obtain ⟨hpath, htarget⟩ := List.append_eq_nil_iff.mp h
    rw [mapText, map_fillString_of_collect_nil value hpath,
      map_fillString_of_collect_nil value htarget]
  | hello => rfl
  | snapshot since format fingerprints => rfl
  | revision => rfl
  | events since limit => rfl
  | keybindings => rfl
  | wait timeoutMs => rfl
  | shutdown => rfl

/-- Binding an op fills its texts. -/
theorem substituteOp_ok {set : Params} {op : Op}
    (covered : set.Covers (collectPlaceholdersInOp op)) :
    substituteOp set op = .ok (op.mapText (fillString set.value)) := by
  have spec_ok {spec : AssertSpec} (h : set.Covers spec.collectPlaceholders) :
      spec.substitute set = .ok (spec.mapText (fillString set.value)) := by
    obtain ⟨h, hrole⟩ := h.append
    obtain ⟨h, hvalue⟩ := h.append
    obtain ⟨htarget, hname⟩ := h.append
    rw [AssertSpec.substitute, substituteString_ok htarget, substituteOption_ok hname,
      substituteOption_ok hvalue, substituteOption_ok hrole]
    rfl
  cases op with
  | waitUntil timeoutMs spec =>
    rw [substituteOp, spec_ok covered]
    rfl
  | assert spec =>
    rw [substituteOp, spec_ok covered]
    rfl
  | click target delivery fingerprint =>
    rw [substituteOp, substituteString_ok covered]
    rfl
  | type target text delivery fingerprint =>
    rw [substituteOp, substituteString_ok covered.append.1, substituteString_ok covered.append.2]
    rfl
  | setValue target value fingerprint =>
    rw [substituteOp, substituteString_ok covered.append.1, substituteString_ok covered.append.2]
    rfl
  | key target key delivery fingerprint =>
    rw [substituteOp, substituteString_ok covered.append.1, substituteString_ok covered.append.2]
    rfl
  | keybinding binding chord scope confirm activate =>
    rw [substituteOp, substituteString_ok covered.append.1, substituteOption_ok covered.append.2]
    rfl
  | invoke name args =>
    rw [substituteOp, substituteString_ok covered.append.1, substituteValue_ok _ covered.append.2]
    rfl
  | screenshot path mode target maxHeightPx =>
    rw [substituteOp, substituteOption_ok covered.append.1, substituteOption_ok covered.append.2]
    rfl
  | hello => rfl
  | snapshot since format fingerprints => rfl
  | revision => rfl
  | events since limit => rfl
  | keybindings => rfl
  | wait timeoutMs => rfl
  | shutdown => rfl

end GpuiAgent
