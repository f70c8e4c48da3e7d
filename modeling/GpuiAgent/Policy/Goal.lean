import GpuiAgent.Framework.RustString

namespace GpuiAgent

open Framework

/-- What the agent is to accomplish. -/
structure UiGoal where
  text : String
  deriving DecidableEq

namespace UiGoal

def new (text : String) : UiGoal := ⟨trim text⟩

def isEmpty (goal : UiGoal) : Bool := goal.text.isEmpty

end UiGoal

/-- Length of a leading connective, its surrounding spaces included. -/
def matchConnective (rest : List Char) : Option Nat :=
  let lower := rest.map Char.toLower
  if " and then ".toList.isPrefixOf lower then some 10
  else if " then ".toList.isPrefixOf lower then some 6
  else none

/-- The pieces between connectives outside quotes. `clause` is the current piece in reverse, `skip`
counts what is left of a connective. -/
def sequentialFrom (skip : Nat) (quote : Option Char) (clause : List Char) :
    List Char → List (List Char)
  | [] => [clause.reverse]
  | c :: cs =>
    if 0 < skip then sequentialFrom (skip - 1) quote clause cs
    else match quote with
      | some q => sequentialFrom 0 (if c = q then none else quote) (c :: clause) cs
      | none =>
        if c = '"' ∨ c = '\x27' then sequentialFrom 0 (some c) (c :: clause) cs
        else match matchConnective (c :: cs) with
          | some len => clause.reverse :: sequentialFrom (len - 1) none [] cs
          | none => sequentialFrom 0 none (c :: clause) cs

/-- What is left of a connective is passed over. -/
theorem sequentialFrom_skip (skip : Nat) (quote : Option Char) (clause cs : List Char) :
    sequentialFrom skip quote clause cs = sequentialFrom 0 quote clause (cs.drop skip) := by
  induction cs generalizing skip with
  | nil => simp only [List.drop_nil, sequentialFrom]
  | cons c cs ih =>
    cases skip with
    | zero => rfl
    | succ skip =>
      rw [sequentialFrom.eq_def]
      exact (if_pos (Nat.succ_pos skip)).trans (ih skip)

/-- The clauses of a goal, split on `then` and `and then` outside quotes. -/
def splitSequentialClauses (goal : String) : List String :=
  let parts := ((sequentialFrom 0 none [] goal.toList).map fun clause => trim (.ofList clause)).filter
    fun clause => !clause.isEmpty
  if parts.isEmpty then
    let t := trim goal
    if t.isEmpty then [] else [t]
  else parts

example : splitSequentialClauses "Type \"hello then world\" into Search then click Go" =
    ["Type \"hello then world\" into Search", "click Go"] := by decide +kernel

end GpuiAgent
