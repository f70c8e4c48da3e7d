import GpuiAgent.Framework.Quotes
import GpuiAgent.Json
import GpuiAgent.Policy.Text
import GpuiAgent.Recipe.Schema

namespace GpuiAgent

open Framework Framework.Quotes

/-- Where the value of an argument was taken from. -/
structure TokenFill where
  name : String
  value : String
  source : String
  deriving DecidableEq

namespace Resolve

/-- The text between the first apostrophe or straight quote and its next occurrence. -/
def firstQuoted (input : String) : Option String :=
  (firstSegment Text.isStraightQuote input.toList).map String.ofList

def MARKERS : List String := ["titled ", "called ", "named "]

/-- What follows the first `marker` of an intent, in any ASCII case. -/
def afterMarker (intent marker : String) : Option String :=
  (findSub marker.toList (toAsciiLowercase intent).toList).map fun idx =>
    trim (.ofList (intent.toList.drop (idx + marker.toList.length)))

/-- The title in what follows a marker. -/
def titleOf (rest : String) : Option String :=
  match firstQuoted rest with
  | some quoted => some quoted
  | none => if rest.isEmpty then none else some (trimMatches (fun c => c = '.' || c = ',') rest)

def extractTitle (intent : String) : Option String :=
  match firstQuoted intent with
  | some quoted => some quoted
  | none => MARKERS.findSome? fun marker => (afterMarker intent marker).bind titleOf

/-- The digits after the first `id`, or else the last word that is a number. -/
def extractId (intent : String) : Option Nat :=
  let num := match findSub "id".toList (toAsciiLowercase intent).toList with
    | some idx =>
      ((intent.toList.drop (idx + 2)).dropWhile fun c => [' ', '=', '#', ':'].contains c).takeWhile
        Char.isDigit
    | none => []
  if num.isEmpty then
    (splitWhitespace intent).reverse.findSome? fun tok =>
      parseU64 (.ofList (tok.toList.dropWhile (· = '#')))
  else parseU64 (.ofList num)

section Invoke

variable (schema : OpSchema) (intent : String)

def titleError : String := s!"{schema.name} requires title (quote it or write titled …)"

def idError : String := s!"{schema.name} requires id"

/-- Fill the required title and id of a schema from prose. -/
def invokeArgsFromIntent : Except String (List (String × Json) × List TokenFill) := do
  let title ←
    if schema.required.contains "title" then
      match extractTitle intent with
      | some title => pure (some title)
      | none => throw (titleError schema)
    else pure none
  let id ←
    if schema.required.contains "id" then
      match extractId intent with
      | some id => pure (some id)
      | none => throw (idError schema)
    else pure none
  return ((id.map fun id => ("id", Json.nat id)).toList ++
      (title.map fun title => ("title", Json.string title)).toList,
    (title.map fun title => ⟨"title", title, "quoted_or_titled"⟩).toList ++
      (id.map fun id => ⟨"id", toString id, "number"⟩).toList)

/-- The arguments of an invoke schema, resolved from an intent. -/
def invokeArgs : Except String Json :=
  if schema.kind ≠ .invoke then .error s!"{schema.name} is not an invoke schema"
  else (invokeArgsFromIntent schema intent).map fun filled => .object filled.1

/-- The title as the call needs it: none where it is not required. -/
def neededTitle : Option String :=
  if "title" ∈ schema.required then extractTitle intent else none

def neededId : Option Nat := if "id" ∈ schema.required then extractId intent else none

def filledArgs : Json :=
  .object (((neededId schema intent).map fun id => ("id", Json.nat id)).toList ++
    ((neededTitle schema intent).map fun title => ("title", Json.string title)).toList)

variable {schema intent}

/-- A call fails for the title, for the id, or it has an entry for each of the two that is
required. -/
theorem invokeArgs_eq (hkind : schema.kind = .invoke) :
    invokeArgs schema intent =
      if "title" ∈ schema.required ∧ extractTitle intent = none then .error (titleError schema)
      else if "id" ∈ schema.required ∧ extractId intent = none then .error (idError schema)
      else .ok (filledArgs schema intent) := by
  unfold invokeArgs invokeArgsFromIntent filledArgs neededTitle neededId
  rw [if_neg (by simp [hkind])]
  simp only [List.contains_iff_mem]
  -- what is required and what is found decide everything
  by_cases htitle : "title" ∈ schema.required <;> by_cases hid : "id" ∈ schema.required <;>
    cases extractTitle intent <;> cases extractId intent <;> simp only [htitle, hid] <;> rfl

/-- Every required name has an entry wherever the call succeeds. -/
def ArgsComplete (schema : OpSchema) (intent : String) : Prop :=
  ∀ args, invokeArgs schema intent = .ok args → ∀ name ∈ schema.required, (args.get name).isSome

theorem get_filledArgs (name : String) :
    (filledArgs schema intent).get name =
      if name = "id" then (neededId schema intent).map Json.nat
      else if name = "title" then (neededTitle schema intent).map Json.string else none := by
  rw [filledArgs, Json.get]
  by_cases hid : name = "id"
  · subst hid
    cases neededId schema intent <;> cases neededTitle schema intent <;> simp [List.lookup_cons]
  · by_cases htitle : name = "title"
    · subst htitle
      cases neededId schema intent <;> cases neededTitle schema intent <;> simp [List.lookup_cons]
    · have hid' : (name == "id") = false := beq_eq_false_iff_ne.mpr hid
      have htitle' : (name == "title") = false := beq_eq_false_iff_ne.mpr htitle
      cases neededId schema intent <;> cases neededTitle schema intent <;>
        simp [List.lookup_cons, hid, htitle, hid', htitle']

/-- A call is complete exactly where a title and an id are all that is required, or one of them is
required and missing. -/
theorem invokeArgs_complete_iff (hkind : schema.kind = .invoke) :
    ArgsComplete schema intent ↔
      (∀ name ∈ schema.required, name = "title" ∨ name = "id") ∨
      ("title" ∈ schema.required ∧ extractTitle intent = none) ∨
      ("id" ∈ schema.required ∧ extractId intent = none) := by
  unfold ArgsComplete
  rw [invokeArgs_eq hkind]
  by_cases htitle : "title" ∈ schema.required ∧ extractTitle intent = none
  · simp [htitle]
  · by_cases hid : "id" ∈ schema.required ∧ extractId intent = none
    · rw [if_neg htitle, if_pos hid]
      simp [hid]
    · rw [if_neg htitle, if_neg hid]
      simp only [htitle, hid, or_false, Except.ok.injEq, forall_eq']
      refine forall₂_congr fun name hname => ?_
      rw [get_filledArgs]
      constructor
      · intro hsome
        by_cases hnameId : name = "id"
        · exact Or.inr hnameId
        · rw [if_neg hnameId] at hsome
          split_ifs at hsome with hnameTitle
          · exact Or.inl hnameTitle
          · cases hsome
      · rintro (rfl | rfl)
        · have hfound : extractTitle intent ≠ none := fun hnone => htitle ⟨hname, hnone⟩
          simp [neededTitle, hname, Option.isSome_iff_ne_none, hfound]
        · have hfound : extractId intent ≠ none := fun hnone => hid ⟨hname, hnone⟩
          simp [neededId, hname, Option.isSome_iff_ne_none, hfound]

end Invoke

end Resolve

/-- The schema of the todo application's add. -/
def todoAdd : OpSchema where
  name := "todo.add"
  kind := .invoke
  effects := [.write]
  idempotent := false
  required := ["title"]
  args := ["title"]

namespace Resolve

theorem invokeArgs_complete_iff_add : ArgsComplete todoAdd "add \"Buy milk\"" :=
  (invokeArgs_complete_iff rfl).mpr (Or.inl (by decide))

def todoNote : OpSchema :=
  { todoAdd with name := "todo.note", required := ["id", "text"], args := ["id"] }

/-- The check of a schema lets a text be required, and nothing fills it. -/
theorem todoNote_unfilled :
    todoNote.validate = .ok () ∧ ¬ ArgsComplete todoNote "note \"Call Ann\" on id 3" := by
  have hargs : invokeArgs todoNote "note \"Call Ann\" on id 3" =
      .ok (.object [("id", .nat 3)]) := by decide +kernel
  refine ⟨by decide +kernel, fun h => ?_⟩
  have htext := h _ hargs "text" (by decide)
  cases htext

end Resolve

end GpuiAgent
