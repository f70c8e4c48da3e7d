import Mathlib.Data.List.Basic

namespace GpuiAgent.Framework

/-- A source that is read at a state, and the version it reports there. -/
structure Versioned (σ ν α : Type*) where
  version : σ → Option ν
  read : σ → α

namespace Versioned

variable {σ ν α : Type*} (source : Versioned σ ν α) {seen : List σ} {entries : List (ν × α)}

/-- Over the states seen, a version is never reported for two readings. -/
def Determined (seen : List σ) : Prop :=
  ∀ s ∈ seen, ∀ t ∈ seen, ∀ v, source.version s = some v → source.version t = some v →
    source.read s = source.read t

/-- Every entry was read, at the version it is kept under, in a state seen. -/
def Sound (seen : List σ) (entries : List (ν × α)) : Prop :=
  ∀ e ∈ entries, ∃ s ∈ seen, source.version s = some e.1 ∧ e.2 = source.read s

variable {source}

theorem Determined.mono {seen' : List σ} (h : source.Determined seen') (hs : seen ⊆ seen') :
    source.Determined seen :=
  fun s hm t ht => h s (hs hm) t (hs ht)

theorem sound_nil (seen : List σ) : source.Sound seen [] := by
  intro e he
  cases he

theorem Sound.mono {seen' : List σ} (h : source.Sound seen entries) (hs : seen ⊆ seen') :
    source.Sound seen' entries := by
  intro e he
  obtain ⟨s, hm, hv, hr⟩ := h e he
  exact ⟨s, hs hm, hv, hr⟩

theorem Sound.subset {entries' : List (ν × α)} (h : source.Sound seen entries)
    (hs : entries' ⊆ entries) : source.Sound seen entries' :=
  fun e he => h e (hs he)

/-- A reading of a new state joins the entries. -/
theorem Sound.push (h : source.Sound seen entries) {s : σ} {v : ν}
    (hv : source.version s = some v) :
    source.Sound (s :: seen) (entries ++ [(v, source.read s)]) := by
  intro e he
  rcases List.mem_append.mp he with he | he
  · exact h.mono (List.subset_cons_self s seen) e he
  · obtain rfl := List.mem_singleton.mp he
    exact ⟨s, List.mem_cons_self, hv, rfl⟩

/-- An entry is the reading of every state seen at its version. -/
theorem Sound.eq_read (h : source.Sound seen entries) (determined : source.Determined seen)
    {e : ν × α} (he : e ∈ entries) {s : σ} (hs : s ∈ seen) (hv : source.version s = some e.1) :
    e.2 = source.read s := by
  obtain ⟨t, ht, htv, hread⟩ := h e he
  exact hread.trans (determined t ht s hs e.1 htv hv)

end Versioned

end GpuiAgent.Framework
