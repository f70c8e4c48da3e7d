import Mathlib.Data.List.Basic

namespace GpuiAgent.Framework

/-- A text with a backslash in front of its quotes and backslashes. -/
def escape (quote : Char) (cs : List Char) : List Char :=
  cs.flatMap fun c => if c = quote ∨ c = '\\' then ['\\', c] else [c]

/-- A quoted text from behind its opening quote on, and what follows the closing one; none where
the text ends first. A backslash takes the next character as it is. -/
def readQuoted (quote : Char) : List Char → Option (List Char × List Char)
  | [] => none
  | c :: cs =>
    if c = quote then some ([], cs)
    else if c = '\\' then match cs with
      | [] => none
      | d :: cs => (readQuoted quote cs).map fun read => (d :: read.1, read.2)
    else (readQuoted quote cs).map fun read => (c :: read.1, read.2)

section Read

variable {quote : Char} (cs : List Char)

theorem readQuoted_close : readQuoted quote (quote :: cs) = some ([], cs) := by
  rw [readQuoted.eq_def]
  exact if_pos rfl

theorem readQuoted_backslash (h : quote ≠ '\\') (d : Char) : readQuoted quote ('\\' :: d :: cs) =
    (readQuoted quote cs).map fun read => (d :: read.1, read.2) := by
  rw [readQuoted.eq_def]
  exact (if_neg (Ne.symm h)).trans (if_pos rfl)

theorem readQuoted_plain {c : Char} (hq : c ≠ quote) (hc : c ≠ '\\') :
    readQuoted quote (c :: cs) = (readQuoted quote cs).map fun read => (c :: read.1, read.2) := by
  rw [readQuoted.eq_def]
  exact (if_neg hq).trans (if_neg hc)

end Read

/-- Reading takes back what the escaping put in. -/
theorem readQuoted_escape {quote : Char} (h : quote ≠ '\\') (cs rest : List Char) :
    readQuoted quote (escape quote cs ++ quote :: rest) = some (cs, rest) := by
  induction cs with
  | nil => exact readQuoted_close rest
  | cons c cs ih =>
    have hcons : escape quote (c :: cs) ++ quote :: rest =
        (if c = quote ∨ c = '\\' then ['\\', c] else [c]) ++
          (escape quote cs ++ quote :: rest) := List.append_assoc _ _ _
    rw [hcons]
    split_ifs with hc
    · rw [List.cons_append, List.singleton_append, readQuoted_backslash _ h, ih, Option.map_some]
    · rw [not_or] at hc
      rw [List.singleton_append, readQuoted_plain _ hc.1 hc.2, ih, Option.map_some]

/-- An escaped text has no character that its text lacks, backslashes apart. -/
theorem mem_escape {quote c : Char} {cs : List Char} (h : c ∈ escape quote cs) :
    c = '\\' ∨ c ∈ cs := by
  rw [escape, List.mem_flatMap] at h
  obtain ⟨d, hd, hc⟩ := h
  split_ifs at hc
  · rcases List.mem_cons.mp hc with rfl | hc
    · exact .inl rfl
    · exact .inr (List.mem_singleton.mp hc ▸ hd)
  · exact .inr (List.mem_singleton.mp hc ▸ hd)

end GpuiAgent.Framework
