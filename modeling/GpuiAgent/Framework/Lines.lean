import Mathlib.Data.List.Basic

namespace GpuiAgent.Framework

/-- A line of a stream: what stands before the separator, and whether the separator came. -/
structure RawLine (α : Type*) where
  body : List α
  ended : Bool

variable {α : Type*}

/-- The line as it stands in the stream. -/
def RawLine.toList (sep : α) (line : RawLine α) : List α :=
  line.body ++ if line.ended then [sep] else []

variable [DecidableEq α] {sep : α}

/-- The lines of a stream. Only the last one can lack its separator. -/
def rawLines (sep : α) : List α → List (RawLine α)
  | [] => []
  | a :: as =>
    if a = sep then ⟨[], true⟩ :: rawLines sep as
    else match rawLines sep as with
      | [] => [⟨[a], false⟩]
      | line :: lines => { line with body := a :: line.body } :: lines

/-- Nothing of the stream is lost. -/
theorem flatMap_rawLines (sep : α) (as : List α) :
    (rawLines sep as).flatMap (RawLine.toList sep) = as := by
  induction as with
  | nil => rfl
  | cons a as ih =>
    rw [rawLines]
    split_ifs with ha
    · rw [List.flatMap_cons, ih, ha]
      rfl
    · cases hlines : rawLines sep as with
      | nil =>
        rw [hlines] at ih
        rw [← ih]
        rfl
      | cons line lines =>
        rw [hlines, List.flatMap_cons] at ih
        rw [← ih, List.flatMap_cons]
        rfl

theorem rawLines_ended {body : List α} (h : sep ∉ body) (rest : List α) :
    rawLines sep (body ++ sep :: rest) = ⟨body, true⟩ :: rawLines sep rest := by
  induction body with
  | nil => rw [List.nil_append, rawLines, if_pos rfl]
  | cons a body ih =>
    have ha : a ≠ sep := fun ha => h (ha ▸ List.mem_cons_self)
    rw [List.cons_append, rawLines, if_neg ha, ih fun hmem => h (List.mem_cons_of_mem a hmem)]

theorem rawLines_open {body : List α} (hne : body ≠ []) (h : sep ∉ body) :
    rawLines sep body = [⟨body, false⟩] := by
  induction body with
  | nil => exact absurd rfl hne
  | cons a body ih =>
    have ha : a ≠ sep := fun ha => h (ha ▸ List.mem_cons_self)
    rw [rawLines, if_neg ha]
    cases body with
    | nil => rfl
    | cons b body =>
      rw [ih (List.cons_ne_nil b body) fun hmem => h (List.mem_cons_of_mem a hmem)]

omit [DecidableEq α] in
/-- A field is read up to its separator. -/
theorem append_sep_inj {field field' rest rest' : List α} (hfield : sep ∉ field)
    (hfield' : sep ∉ field') (h : field ++ sep :: rest = field' ++ sep :: rest') :
    field = field' ∧ rest = rest' := by
  induction field generalizing field' with
  | nil =>
    cases field' with
    | nil => exact ⟨rfl, (List.cons.inj h).2⟩
    | cons a field' =>
      obtain ⟨rfl, -⟩ := List.cons.inj h
      exact absurd List.mem_cons_self hfield'
  | cons a field ih =>
    rw [List.mem_cons, not_or] at hfield
    cases field' with
    | nil => exact absurd (List.cons.inj h).1.symm hfield.1
    | cons b field' =>
      rw [List.mem_cons, not_or] at hfield'
      obtain ⟨rfl, htails⟩ := List.cons.inj h
      obtain ⟨rfl, hrest⟩ := ih hfield.2 hfield'.2 htails
      exact ⟨rfl, hrest⟩

omit [DecidableEq α] in
/-- Fields that are closed by a separator and a tail without one are read back. -/
theorem fields_append_inj {fields fields' : List (List α)} {tail tail' : List α}
    (hfields : ∀ field ∈ fields, sep ∉ field) (hfields' : ∀ field ∈ fields', sep ∉ field)
    (htail : sep ∉ tail) (htail' : sep ∉ tail')
    (h : fields.flatMap (fun field => field ++ [sep]) ++ tail =
      fields'.flatMap (fun field => field ++ [sep]) ++ tail') : fields = fields' ∧ tail = tail' := by
  have hcons (field : List α) (fields : List (List α)) (tail : List α) :
      (field :: fields).flatMap (fun field => field ++ [sep]) ++ tail =
        field ++ sep :: (fields.flatMap (fun field => field ++ [sep]) ++ tail) := by simp
  induction fields generalizing fields' with
  | nil =>
    cases fields' with
    | nil => exact ⟨rfl, h⟩
    | cons field' fields' =>
      rw [hcons, List.flatMap_nil, List.nil_append] at h
      exact absurd (h ▸ List.mem_append_right field' List.mem_cons_self) htail
  | cons field fields ih =>
    rw [List.forall_mem_cons] at hfields
    cases fields' with
    | nil =>
      rw [hcons, List.flatMap_nil, List.nil_append] at h
      exact absurd (h ▸ List.mem_append_right field List.mem_cons_self) htail'
    | cons field' fields' =>
      rw [List.forall_mem_cons] at hfields'
      rw [hcons, hcons] at h
      obtain ⟨rfl, hrest⟩ := append_sep_inj hfields.1 hfields'.1 h
      obtain ⟨rfl, htails⟩ := ih hfields.2 hfields'.2 hrest
      exact ⟨rfl, htails⟩

/-- A stream is read line by line: nothing, one line and what follows it, or a last open line. -/
theorem rawLines_induction (sep : α) {motive : List α → Prop} (nil : motive [])
    (ended : ∀ body rest, sep ∉ body → motive rest → motive (body ++ sep :: rest))
    (last : ∀ body, body ≠ [] → sep ∉ body → motive body) : ∀ as, motive as := by
  intro as
  induction hn : as.length using Nat.strongRecOn generalizing as with
  | ind n ih =>
    by_cases hmem : sep ∈ as
    · obtain ⟨body, rest, rfl, hbody⟩ := List.eq_append_cons_of_mem hmem
      rw [List.length_append, List.length_cons] at hn
      exact ended body rest hbody (ih rest.length (by omega) rest rfl)
    · cases as with
      | nil => exact nil
      | cons a as => exact last (a :: as) (List.cons_ne_nil a as) hmem

/-- Closed lines are read back. -/
theorem rawLines_flatMap {bodies : List (List α)} (h : ∀ body ∈ bodies, sep ∉ body) :
    rawLines sep (bodies.flatMap fun body => body ++ [sep]) =
      bodies.map fun body => ⟨body, true⟩ := by
  induction bodies with
  | nil => rfl
  | cons body bodies ih =>
    rw [List.forall_mem_cons] at h
    rw [List.flatMap_cons, List.append_assoc, List.singleton_append, rawLines_ended h.1, ih h.2,
      List.map_cons]

theorem sep_notMem_body {as : List α} {line : RawLine α} (h : line ∈ rawLines sep as) :
    sep ∉ line.body := by
  induction as using rawLines_induction sep with
  | nil => cases h
  | ended body rest hbody ih =>
    rw [rawLines_ended hbody] at h
    rcases List.mem_cons.mp h with rfl | h
    · exact hbody
    · exact ih h
  | last body hne hbody =>
    rw [rawLines_open hne hbody] at h
    obtain rfl := List.mem_singleton.mp h
    exact hbody

end GpuiAgent.Framework
