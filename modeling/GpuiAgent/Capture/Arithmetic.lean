import GpuiAgent.Tree.UiTree
import Mathlib.Algebra.Order.Floor.Ring
import Mathlib.Data.Rat.Floor

namespace GpuiAgent.F32

/-- `f32::max`: of a NaN and another number it is the other one. -/
def max (a b : F32) : F32 := if a = .nan then b else if a.lt b then b else a

def min (a b : F32) : F32 := if a = .nan then b else if b.lt a then b else a

def neg : F32 → F32
  | finite a => finite (-a)
  | inf a => inf !a
  | nan => nan

def sub (a b : F32) : F32 := a.add b.neg

/-- The sign of a product with an infinite factor. -/
def mulInf (a : Bool) (q : Rat) : F32 := if q = 0 then nan else inf (a != decide (q < 0))

def mul : F32 → F32 → F32
  | finite a, finite b => finite (a * b)
  | inf a, inf b => inf (a != b)
  | inf a, finite q | finite q, inf a => mulInf a q
  | nan, _ | _, nan => nan

/-- The one zero is taken as the positive one, as it is wherever a capture divides by zero. -/
def div : F32 → F32 → F32
  | finite a, finite b =>
    if b = 0 then if a = 0 then nan else inf (a < 0)
    else finite (a / b)
  | inf a, finite b => inf (a != decide (b < 0))
  | finite _, inf _ => finite 0
  | inf _, inf _ => nan
  | nan, _ | _, nan => nan

/-- `f32::round`: to the nearest integer, halves away from zero. -/
def round : F32 → F32
  | finite q => finite (if q < 0 then ⌈q - 1 / 2⌉ else ⌊q + 1 / 2⌋)
  | x => x

/-- `as` an integer type with the bounds `lo` and `hi`: truncated, saturating, a NaN is zero. -/
def toInt (lo hi : Int) : F32 → Int
  | finite q =>
    let n := if q < 0 then ⌈q⌉ else ⌊q⌋
    if n < lo then lo else if hi < n then hi else n
  | inf negative => if negative then lo else hi
  | nan => 0

def toI64 : F32 → Int := toInt (-2 ^ 63) (2 ^ 63 - 1)

def toU32 (x : F32) : Nat := (toInt 0 (2 ^ 32 - 1) x).toNat

section Finite

variable (a b : Rat)

@[simp] theorem lt_finite : (finite a).lt (finite b) = decide (a < b) := rfl

@[simp] theorem add_finite : (finite a).add (finite b) = finite (a + b) := rfl

@[simp] theorem sub_finite : (finite a).sub (finite b) = finite (a - b) := by
  simp [sub, neg, add, sub_eq_add_neg]

@[simp] theorem max_finite : (finite a).max (finite b) = finite (Max.max a b) := by
  by_cases h : a < b
  · simp [max, h, max_eq_right h.le]
  · simp [max, h, max_eq_left (le_of_not_gt h)]

@[simp] theorem min_finite : (finite a).min (finite b) = finite (Min.min a b) := by
  by_cases h : b < a
  · simp [min, h, min_eq_right h.le]
  · simp [min, h, min_eq_left (le_of_not_gt h)]

end Finite

end GpuiAgent.F32
