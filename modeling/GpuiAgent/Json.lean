import Mathlib.Algebra.Group.Int.Defs
import Mathlib.Data.Rat.Defs

namespace GpuiAgent

/-- A `serde_json` number: integers and floats are never equal to each other. -/
inductive JsonNumber where
  | int (n : Int)
  | float (q : Rat)
  deriving DecidableEq

/-- A `serde_json::Value`. An object lists its entries in key order, each key once. -/
inductive Json where
  | null
  | bool (b : Bool)
  | number (n : JsonNumber)
  | string (s : String)
  | array (xs : List Json)
  | object (fields : List (String × Json))

namespace Json

mutual
def decEq : (a b : Json) → Decidable (a = b)
  | null, null => isTrue rfl
  | bool a, bool b => decidable_of_iff (a = b) (by simp)
  | number a, number b => decidable_of_iff (a = b) (by simp)
  | string a, string b => decidable_of_iff (a = b) (by simp)
  | array a, array b => @decidable_of_iff _ (a = b) (by simp) (decEqArray a b)
  | object a, object b => @decidable_of_iff _ (a = b) (by simp) (decEqFields a b)
  | null, bool _ | null, number _ | null, string _ | null, array _ | null, object _
  | bool _, null | bool _, number _ | bool _, string _ | bool _, array _ | bool _, object _
  | number _, null | number _, bool _ | number _, string _ | number _, array _ | number _, object _
  | string _, null | string _, bool _ | string _, number _ | string _, array _ | string _, object _
  | array _, null | array _, bool _ | array _, number _ | array _, string _ | array _, object _
  | object _, null | object _, bool _ | object _, number _ | object _, string _
  | object _, array _ => isFalse (by simp)
def decEqArray : (a b : List Json) → Decidable (a = b)
  | [], [] => isTrue rfl
  | [], _ :: _ | _ :: _, [] => isFalse (by simp)
  | x :: xs, y :: ys =>
    @decidable_of_iff _ (x = y ∧ xs = ys) (by simp)
      (@instDecidableAnd _ _ (decEq x y) (decEqArray xs ys))
def decEqFields : (a b : List (String × Json)) → Decidable (a = b)
  | [], [] => isTrue rfl
  | [], _ :: _ | _ :: _, [] => isFalse (by simp)
  | (k, x) :: xs, (l, y) :: ys =>
    @decidable_of_iff _ ((k = l ∧ x = y) ∧ xs = ys) (by simp)
      (@instDecidableAnd _ _ (@instDecidableAnd _ _ _ (decEq x y)) (decEqFields xs ys))
end

instance : DecidableEq Json := decEq

def nat (n : Nat) : Json := number (.int n)

def strings (xs : List String) : Json := array (xs.map string)

/-- `Value::get` with a string key. -/
def get (v : Json) (key : String) : Option Json :=
  match v with
  | object fields => fields.lookup key
  | _ => none

def asObject : Json → Option (List (String × Json))
  | object fields => some fields
  | _ => none

def asStr : Json → Option String
  | string s => some s
  | _ => none

def asBool : Json → Option Bool
  | bool b => some b
  | _ => none

/-- `Value::as_u64`. -/
def asU64 : Json → Option Nat
  | number (.int n) => if 0 ≤ n ∧ n < 2 ^ 64 then some n.toNat else none
  | _ => none

/-- `serde_json::from_value::<Vec<String>>`. -/
def toStrings : Json → Option (List String)
  | array xs => xs.mapM asStr
  | _ => none

@[simp] theorem toStrings_strings (xs : List String) : (strings xs).toStrings = some xs := by
  simp only [strings, toStrings]
  induction xs with
  | nil => rfl
  | cons x xs ih => simp [asStr, ih]

theorem strings_injective {xs ys : List String} (h : strings xs = strings ys) : xs = ys := by
  simpa using congrArg toStrings h

end Json

end GpuiAgent
