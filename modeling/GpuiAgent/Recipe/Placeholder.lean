import GpuiAgent.Host.Protocol
import GpuiAgent.Framework.RustString
import Std.Data.TreeMap.Lemmas

namespace GpuiAgent

open Framework

/-- The values given for a recipe's parameters. -/
abbrev Params := Std.TreeMap String String

def identStart (c : Char) : Bool := c.isAlpha || c = '_'

def identChar (c : Char) : Bool := c.isAlphanum || c = '_'

def isIdent : List Char → Bool
  | [] => false
  | c :: cs => identStart c && cs.all identChar

/-- `$ident` or `$\x7bident\x7d`, read after the dollar sign: the name and the number of
characters. -/
def parsePlaceholder : List Char → Option (String × Nat)
  | [] => none
  | '{' :: cs =>
    let name := cs.takeWhile (· ≠ '}')
    -- without a closing brace there is no placeholder
    if name.length = cs.length then none
    else if isIdent name then some (.ofList name, name.length + 2) else none
  | cs =>
    let name := cs.takeWhile identChar
    if name.isEmpty then none
    else if isIdent name then some (.ofList name, name.length) else none

/-- The names of the placeholders, after `skip` characters of the last one. -/
def collectPlaceholdersFrom (skip : Nat) : List Char → List String
  | [] => []
  | c :: cs => match skip with
    | skip + 1 => collectPlaceholdersFrom skip cs
    | 0 => match if c = '$' then parsePlaceholder cs else none with
      | some (name, used) => name :: collectPlaceholdersFrom used cs
      | none => collectPlaceholdersFrom 0 cs

def collectPlaceholders (s : String) : List String := collectPlaceholdersFrom 0 s.toList

def stringHasPlaceholder (s : String) : Bool := !(collectPlaceholders s).isEmpty

def substituteFrom (set : Params) (skip : Nat) : List Char → Except String (List Char)
  | [] => .ok []
  | c :: cs => match skip with
    | skip + 1 => substituteFrom set skip cs
    | 0 => match if c = '$' then parsePlaceholder cs else none with
      | some (name, used) => do
        let some value := set[name]? | throw s!"missing --set {name}=…"
        return value.toList ++ (← substituteFrom set used cs)
      | none => do return c :: (← substituteFrom set 0 cs)

def substituteString (s : String) (set : Params) : Except String String :=
  if !s.toList.contains '$' then .ok s else (substituteFrom set 0 s.toList).map String.ofList

mutual
def collectPlaceholdersInValue : Json → List String
  | .string s => collectPlaceholders s
  | .array xs => collectPlaceholdersInArray xs
  | .object fields => collectPlaceholdersInFields fields
  | .null | .bool _ | .number _ => []
def collectPlaceholdersInArray : List Json → List String
  | [] => []
  | x :: xs => collectPlaceholdersInValue x ++ collectPlaceholdersInArray xs
def collectPlaceholdersInFields : List (String × Json) → List String
  | [] => []
  | (_, v) :: fields => collectPlaceholdersInValue v ++ collectPlaceholdersInFields fields
end

mutual
def substituteValue (set : Params) : Json → Except String Json
  | .string s => (substituteString s set).map .string
  | .array xs => (substituteArray set xs).map .array
  | .object fields => (substituteFields set fields).map .object
  | .null => .ok .null
  | .bool b => .ok (.bool b)
  | .number n => .ok (.number n)
def substituteArray (set : Params) : List Json → Except String (List Json)
  | [] => .ok []
  | x :: xs => do return (← substituteValue set x) :: (← substituteArray set xs)
def substituteFields (set : Params) : List (String × Json) → Except String (List (String × Json))
  | [] => .ok []
  | (k, v) :: fields => do return (k, ← substituteValue set v) :: (← substituteFields set fields)
end

def collectPlaceholdersInOption (s : Option String) : List String :=
  s.elim [] collectPlaceholders

def substituteOption (s : Option String) (set : Params) : Except String (Option String) :=
  match s with
  | none => .ok none
  | some s => (substituteString s set).map some

def AssertSpec.collectPlaceholders (spec : AssertSpec) : List String :=
  GpuiAgent.collectPlaceholders spec.target ++ collectPlaceholdersInOption spec.name ++
    collectPlaceholdersInOption spec.value ++ collectPlaceholdersInOption spec.role

def AssertSpec.substitute (spec : AssertSpec) (set : Params) : Except String AssertSpec := do
  return { spec with
    target := ← substituteString spec.target set
    name := ← substituteOption spec.name set
    value := ← substituteOption spec.value set
    role := ← substituteOption spec.role set }

def collectPlaceholdersInOp : Op → List String
  | .hello | .snapshot .. | .shutdown | .wait _ | .keybindings | .events .. | .revision => []
  | .waitUntil _ spec | .assert spec => spec.collectPlaceholders
  | .click target _ _ => collectPlaceholders target
  | .type target text _ _ => collectPlaceholders target ++ collectPlaceholders text
  | .setValue target value _ => collectPlaceholders target ++ collectPlaceholders value
  | .key target key _ _ => collectPlaceholders target ++ collectPlaceholders key
  | .keybinding binding chord _ _ _ =>
    collectPlaceholders binding ++ collectPlaceholdersInOption chord
  | .invoke name args => collectPlaceholders name ++ collectPlaceholdersInValue args
  | .screenshot path _ target _ =>
    collectPlaceholdersInOption path ++ collectPlaceholdersInOption target

def substituteOp (set : Params) : Op → Except String Op
  | .hello => .ok .hello
  | .snapshot since format fingerprints => .ok (.snapshot since format fingerprints)
  | .shutdown => .ok .shutdown
  | .wait timeoutMs => .ok (.wait timeoutMs)
  | .keybindings => .ok .keybindings
  | .events since limit => .ok (.events since limit)
  | .revision => .ok .revision
  | .waitUntil timeoutMs spec => do return .waitUntil timeoutMs (← spec.substitute set)
  | .assert spec => do return .assert (← spec.substitute set)
  | .click target delivery fingerprint => do
    return .click (← substituteString target set) delivery fingerprint
  | .type target text delivery fingerprint => do
    return .type (← substituteString target set) (← substituteString text set) delivery fingerprint
  | .setValue target value fingerprint => do
    return .setValue (← substituteString target set) (← substituteString value set) fingerprint
  | .key target key delivery fingerprint => do
    return .key (← substituteString target set) (← substituteString key set) delivery fingerprint
  | .keybinding binding chord scope confirm activate => do
    return .keybinding (← substituteString binding set) (← substituteOption chord set) scope confirm
      activate
  | .invoke name args => do
    return .invoke (← substituteString name set) (← substituteValue set args)
  | .screenshot path mode target maxHeightPx => do
    return .screenshot (← substituteOption path set) mode (← substituteOption target set)
      maxHeightPx

end GpuiAgent
