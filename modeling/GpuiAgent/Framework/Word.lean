import Mathlib.Algebra.Group.Nat.Defs
import Mathlib.Tactic.Common

namespace GpuiAgent.Framework

/-- Addition of two `u64` values, wrapped. -/
def wrappingAdd (a b : Nat) : Nat := (a + b) % 2 ^ 64

theorem wrappingAdd_le (a b : Nat) : wrappingAdd a b ≤ a + b := Nat.mod_le _ _

/-- Subtraction of two `u64` values, wrapped. -/
def wrappingSub (a b : Nat) : Nat := (a + (2 ^ 64 - b)) % 2 ^ 64

/-- Addition of two `u64` values where overflow is checked; none is a panic. -/
def checkedAdd (a b : Nat) : Option Nat := if a + b < 2 ^ 64 then some (a + b) else none

/-- Subtraction of two `u64` values where overflow is checked; none is a panic. -/
def checkedSub (a b : Nat) : Option Nat := if b ≤ a then some (a - b) else none

theorem checkedAdd_eq_some {a b c : Nat} : checkedAdd a b = some c ↔ a + b < 2 ^ 64 ∧ a + b = c := by
  unfold checkedAdd
  split_ifs with h
  · rw [Option.some_inj]
    exact (and_iff_right h).symm
  · exact iff_of_false not_false fun hc => h hc.1

theorem checkedSub_eq {a b : Nat} (h : b ≤ a) : checkedSub a b = some (a - b) := if_pos h

theorem wrappingAdd_eq {a b : Nat} (h : a + b < 2 ^ 64) : wrappingAdd a b = a + b :=
  Nat.mod_eq_of_lt h

theorem wrappingSub_eq {a b : Nat} (hb : b ≤ a) (ha : a < 2 ^ 64) : wrappingSub a b = a - b := by
  have h : a + (2 ^ 64 - b) = a - b + 2 ^ 64 := by omega
  rw [wrappingSub, h, Nat.add_mod_right, Nat.mod_eq_of_lt (by omega)]

end GpuiAgent.Framework
