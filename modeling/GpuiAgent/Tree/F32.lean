import GpuiAgent.Framework.Rounding
import GpuiAgent.Json
import Mathlib.Algebra.Order.Ring.Rat
import Mathlib.Tactic.FieldSimp
import Mathlib.Tactic.Positivity

namespace GpuiAgent

open Framework

/-- An `f32` by its numeric value. The two zeros compare equal in the code and are one value here;
layout arithmetic is exact. -/
inductive F32 where
  | finite (q : Rat)
  | inf (negative : Bool)
  | nan
  deriving DecidableEq

namespace F32

/-- `self > 0.0`. -/
def isPositive : F32 → Bool
  | finite q => 0 < q
  | inf negative => !negative
  | nan => false

def add : F32 → F32 → F32
  | finite a, finite b => finite (a + b)
  | inf a, inf b => if a = b then inf a else nan
  | inf a, finite _ | finite _, inf a => inf a
  | nan, _ | _, nan => nan

/-- `self < other`. -/
def lt : F32 → F32 → Bool
  | finite a, finite b => a < b
  | inf a, inf b => a && !b
  | inf a, finite _ => a
  | finite _, inf b => !b
  | nan, _ | _, nan => false

def half : F32 → F32
  | finite a => finite (a / 2)
  | x => x

/-- The size of a number in units of `2 ^ -149`, rounded to 24 bits. -/
def units (q : Rat) : Nat := roundTo 24 (q.num.natAbs * 2 ^ 149) q.den

/-- The size of the nearest `f32`. -/
def magnitude (q : Rat) : Rat := units q / 2 ^ 149

/-- `as f32`: the nearest `f32`, which is infinite from `2 ^ 128` on. -/
def ofRat (q : Rat) : F32 :=
  if 2 ^ 128 ≤ magnitude q then inf (q < 0)
  else finite (if q < 0 then -magnitude q else magnitude q)

/-- A finite number of the type. -/
def Finite : F32 → Prop
  | finite q => ofRat q = finite q
  | inf _ | nan => False

instance : DecidablePred Finite
  | finite q => inferInstanceAs (Decidable (ofRat q = finite q))
  | inf _ | nan => .isFalse id

/-- A number of the type, finite or not. -/
def Numeric (x : F32) : Prop := x.Finite ∨ ∃ negative, x = inf negative

/-- `serde_json::to_value` of an `f32`: a float, or `null` when it is not finite. -/
def toJson : F32 → Json
  | finite q => .number (.float q)
  | _ => .null

/-- `f32::deserialize`: of any number, the `f32` that is nearest to it. -/
def ofJson : Json → Option F32
  | .number (.float q) => some (ofRat q)
  | .number (.int n) => some (ofRat n)
  | _ => none

theorem ofJson_toJson_iff {x : F32} : ofJson x.toJson = some x ↔ x.Finite := by
  cases x with
  | finite q => exact Option.some_inj
  | inf negative => exact iff_of_false nofun id
  | nan => exact iff_of_false nofun id

theorem toJson_injective_of_finite {x y : F32} (hx : x.Finite) (h : x.toJson = y.toJson) :
    x = y := by
  cases x with
  | finite q =>
    cases y with
    | finite r =>
      obtain rfl : q = r := by simpa [toJson] using h
      rfl
    | inf negative => cases h
    | nan => cases h
  | inf negative => exact absurd hx id
  | nan => exact absurd hx id

theorem magnitude_nonneg (q : Rat) : 0 ≤ magnitude q := by
  unfold magnitude
  positivity

/-- A rounded size is left as it is. -/
theorem magnitude_of_abs {q r : Rat} (h : |r| = magnitude q) : magnitude r = magnitude q := by
  unfold magnitude at h ⊢
  have hr : r.num.natAbs * 2 ^ 149 = units q * r.den := by
    have habs : |r| = (r.num.natAbs : Rat) / r.den := by
      rw [Rat.abs_def, Rat.divInt_eq_div]
      rfl
    have hden : (r.den : Rat) ≠ 0 := by exact_mod_cast r.den_ne_zero
    rw [habs] at h
    field_simp at h
    rw [Nat.mul_comm (units q)]
    exact_mod_cast h
  have hunits : units r = units q := by
    rw [units, hr]
    exact roundTo_roundTo (by decide) q.den_pos r.den_pos
  rw [hunits]

/-- The nearest `f32` is one. -/
theorem ofRat_numeric (q : Rat) : (ofRat q).Numeric := by
  by_cases hlarge : 2 ^ 128 ≤ magnitude q
  · exact .inr ⟨_, if_pos hlarge⟩
  · have hq := magnitude_nonneg q
    left
    unfold ofRat
    rw [if_neg hlarge]
    split_ifs with hneg
    · have hsize : magnitude (-magnitude q) = magnitude q :=
        magnitude_of_abs (by rw [abs_neg, abs_of_nonneg hq])
      show ofRat _ = _
      unfold ofRat
      rw [hsize, if_neg hlarge]
      split_ifs with hzero
      · rfl
      · have : magnitude q = 0 := le_antisymm (by simpa using hzero) hq
        rw [this, neg_zero]
    · have hsize : magnitude (magnitude q) = magnitude q :=
        magnitude_of_abs (abs_of_nonneg hq)
      show ofRat _ = _
      unfold ofRat
      rw [hsize, if_neg hlarge, if_neg hq.not_gt]

theorem numeric_of_ofJson {v : Json} {x : F32} (h : ofJson v = some x) : x.Numeric := by
  unfold ofJson at h
  split at h
  · exact Option.some.inj h ▸ ofRat_numeric _
  · exact Option.some.inj h ▸ ofRat_numeric _
  · cases h

example : ofRat (10 ^ 39) = inf false ∧ ofRat (-10 ^ 39) = inf true ∧
    ofRat (1 / 10) = finite (13421773 / 134217728) := by
  decide +kernel

end F32

end GpuiAgent
