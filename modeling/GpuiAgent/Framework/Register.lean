import Mathlib.Data.List.Basic
import Mathlib.Logic.Function.Basic

namespace GpuiAgent.Framework

/-- Entries under numbers, each of which is given out once. -/
structure Register (α : Type*) where
  next : Nat
  entry : Nat → Option α

/-- What is done to a register: a new entry, an amendment of the kind `κ`, or an entry struck. -/
inductive RegisterChange (α κ : Type*) where
  | keep
  | enter (a : α)
  | amend (n : Nat) (kind : κ)
  | strike (n : Nat)
  deriving DecidableEq

namespace Register

variable {α κ : Type*} (act : κ → α → α)

def apply (r : Register α) : RegisterChange α κ → Register α
  | .keep => r
  | .enter a => ⟨r.next + 1, Function.update r.entry r.next (some a)⟩
  | .amend n kind => { r with entry := Function.update r.entry n ((r.entry n).map (act kind)) }
  | .strike n => { r with entry := Function.update r.entry n none }

def replay (r : Register α) (changes : List (RegisterChange α κ)) : Register α :=
  changes.foldl (apply act) r

/-- The amendments of entry `n`, in turn. -/
def amendments (n : Nat) (changes : List (RegisterChange α κ)) : List κ :=
  changes.filterMap fun
    | .amend m kind => if m = n then some kind else none
    | _ => none

/-- An entry with amendments made to it. -/
def amended (kinds : List κ) (a : α) : α := kinds.foldl (fun a kind => act kind a) a

/-- No entry under a number still to be given out. -/
def Fresh (r : Register α) : Prop := ∀ n, r.next ≤ n → r.entry n = none

variable {act} {r : Register α} {n : Nat}

theorem next_le_apply (r : Register α) (c : RegisterChange α κ) : r.next ≤ (r.apply act c).next := by
  cases c with
  | enter a => exact Nat.le_succ _
  | _ => exact Nat.le_refl _

theorem Fresh.apply (h : r.Fresh) (c : RegisterChange α κ) : (r.apply act c).Fresh := by
  intro m hm
  cases c with
  | keep => exact h m hm
  | enter a =>
    have hm : r.next + 1 ≤ m := hm
    exact (Function.update_of_ne (by omega) _ _).trans (h m (by omega))
  | amend k kind =>
    have hm : r.next ≤ m := hm
    rcases eq_or_ne m k with rfl | hne
    · simp [Register.apply, h m hm]
    · exact (Function.update_of_ne hne _ _).trans (h m hm)
  | strike k =>
    have hm : r.next ≤ m := hm
    rcases eq_or_ne m k with rfl | hne
    · exact Function.update_self _ _ _
    · exact (Function.update_of_ne hne _ _).trans (h m hm)

theorem Fresh.replay (changes : List (RegisterChange α κ)) : ∀ {r : Register α}, r.Fresh →
    (r.replay act changes).Fresh := by
  induction changes with
  | nil => exact id
  | cons c changes ih => exact fun h => ih (h.apply c)

/-- A number that was given out keeps its entry, amended, until the entry is struck, and gets no
other one. -/
theorem entry_replay (changes : List (RegisterChange α κ)) : ∀ {r : Register α}, n < r.next →
    (.strike n ∈ changes → (r.replay act changes).entry n = none) ∧
    (.strike n ∉ changes → (r.replay act changes).entry n =
      (r.entry n).map (amended act (amendments n changes))) := by
  induction changes with
  | nil =>
    intro r _
    refine ⟨fun h => absurd h List.not_mem_nil, fun _ => ?_⟩
    exact (Option.map_id' ..).symm
  | cons c changes ih =>
    intro r hn
    obtain ⟨hstruck, hkept⟩ := ih (Nat.lt_of_lt_of_le hn (@next_le_apply _ _ act r c))
    have hreplay : r.replay act (c :: changes) = (r.apply act c).replay act changes := rfl
    rw [hreplay]
    cases c with
    | keep =>
      refine ⟨fun h => hstruck (by simpa using h), fun h => hkept (by simpa using h)⟩
    | enter a =>
      have hentry : (r.apply act (.enter a : RegisterChange α κ)).entry n = r.entry n :=
        Function.update_of_ne (by omega) _ _
      refine ⟨fun h => hstruck (by simpa using h), fun h => ?_⟩
      rw [hkept (by simpa using h), hentry]
      rfl
    | amend m kind =>
      refine ⟨fun h => hstruck (by simpa using h), fun h => ?_⟩
      rw [hkept (by simpa using h)]
      rcases eq_or_ne n m with rfl | hne
      · have hentry : (r.apply act (.amend n kind)).entry n = (r.entry n).map (act kind) :=
          Function.update_self _ _ _
        have hamended : amendments n (.amend n kind :: changes) =
            kind :: amendments n (changes : List (RegisterChange α κ)) := by simp [amendments]
        rw [hentry, Option.map_map, hamended]
        rfl
      · have hentry : (r.apply act (.amend m kind)).entry n = r.entry n :=
          Function.update_of_ne hne _ _
        rw [hentry]
        simp [amendments, Ne.symm hne]
    | strike m =>
      rcases eq_or_ne n m with rfl | hne
      · have hentry : (r.apply act (.strike n : RegisterChange α κ)).entry n = none :=
          Function.update_self _ _ _
        refine ⟨fun _ => ?_, fun h => absurd List.mem_cons_self h⟩
        by_cases hlater : .strike n ∈ changes
        · exact hstruck hlater
        · rw [hkept hlater, hentry]
          rfl
      · have hentry : (r.apply act (.strike m : RegisterChange α κ)).entry n = r.entry n :=
          Function.update_of_ne hne _ _
        refine ⟨fun h => hstruck (by simpa [hne] using h), fun h => ?_⟩
        rw [hkept (fun hlater => h (List.mem_cons_of_mem _ hlater)), hentry]
        rfl

end Register

end GpuiAgent.Framework
