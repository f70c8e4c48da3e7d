import GpuiAgent.Policy.Goal
import GpuiAgent.Tree.UiTree

namespace GpuiAgent

open Framework

structure TextContext where
  goal : UiGoal
  fieldLabel : String
  fieldRole : String
  typed : List String
  contextFingerprint : UInt64

/-- FNV-1a over the goal, the label and the observation. -/
def TextContext.fingerprint (ctx : TextContext) : UInt64 :=
  let hash := UiNode.feed (UiNode.feed UiNode.OFF (UiNode.utf8 ctx.goal.text))
    (UiNode.utf8 ctx.fieldLabel)
  (hash ^^^ ctx.contextFingerprint) * 0x100000001b3

structure TextResolution where
  text : String
  contextFingerprint : UInt64
  deriving DecidableEq

inductive TextError where
  | ambiguous | missing | invalid (msg : String) | abstain (msg : String)
  deriving DecidableEq

namespace Text

def closingQuote : Char → Option Char
  | '"' => some '"'
  | '\u201c' => some '\u201d'
  | _ => none

/-- The quoted literals with the positions of their opening quotes. A literal that was found is
passed over by `skip`; an opening quote that nothing closes is passed over alone. -/
def quotedLiteralsFrom (offset skip : Nat) : List Char → List (Nat × String)
  | [] => []
  | c :: cs =>
    if 0 < skip then quotedLiteralsFrom (offset + 1) (skip - 1) cs
    else match closingQuote c with
      | none => quotedLiteralsFrom (offset + 1) 0 cs
      | some close =>
        let content := cs.takeWhile (· ≠ close)
        if content.length = cs.length then quotedLiteralsFrom (offset + 1) 0 cs
        else (if content.isEmpty then [] else [(offset, .ofList content)]) ++
          quotedLiteralsFrom (offset + 1) (content.length + 1) cs

def quotedLiterals (goal : String) : List (Nat × String) := quotedLiteralsFrom 0 0 goal.toList

def asciiWords (text : String) : List String :=
  ((splitChars (fun c => !c.isAlphanum) text.toList).filter fun word => !word.isEmpty).map
    fun word => toAsciiLowercase (.ofList word)

/-- The text between the first quote of either straight kind and its next occurrence. -/
def firstQuoted (s : String) : Option String :=
  match s.toList.dropWhile fun c => c ≠ '"' && c ≠ '\x27' with
  | [] => none
  | quote :: rest =>
    let content := rest.takeWhile (· ≠ quote)
    if content.length = rest.length then none else some (.ofList content)

def isStraightQuote (c : Char) : Bool := c = '"' || c = '\x27'

/-- `type VALUE into FIELD`. -/
def typeIntoPattern (goal field : String) : Option String := do
  let lower := (toAsciiLowercase goal).toList
  let fieldL := toAsciiLowercase field
  let typeIdx ← findSub "type ".toList lower
  let intoIdx ← findSub " into ".toList lower
  if intoIdx < typeIdx + 5 then none
  else
    let value := trim (.ofList ((goal.toList.take intoIdx).drop (typeIdx + 5)))
    let after := String.ofList (lower.drop (intoIdx + 6))
    if !contains after fieldL && !fieldL.isEmpty && !field.isEmpty then none
    else if value.isEmpty then none
    else some (trimMatches isStraightQuote value)

/-- `fill FIELD with VALUE`. -/
def fillWithPattern (goal field : String) : Option String := do
  let lower := toAsciiLowercase goal
  let fieldL := toAsciiLowercase field
  if !fieldL.isEmpty && !contains lower fieldL then none
  else
    let withIdx ← findSub " with ".toList lower.toList
    let value := trim (.ofList (goal.toList.drop (withIdx + 6)))
    if value.isEmpty then none else some (trimMatches isStraightQuote value)

/-- A word of the label is one of the last three words in the 32 characters before the quote. -/
def labelPicks (goal : String) (labelWords : List String) (openingQuote : Nat) : Bool :=
  let before := goal.toList.take openingQuote
  let window := before.drop (before.length - 32)
  ((asciiWords (.ofList window)).reverse.take 3).any fun word => labelWords.contains word

end Text

open Text in
/-- The payload of a field, taken from the clause: a literal not typed yet, or a pattern's value. -/
def DeterministicTextResolver.resolve (ctx : TextContext) : Except TextError TextResolution :=
  let goal := ctx.goal.text
  let resolution (text : String) : TextResolution := ⟨text, ctx.fingerprint⟩
  let literals := Text.quotedLiterals goal
  if !literals.isEmpty then
    match literals.filter fun row => !ctx.typed.contains row.2 with
    | [] => .error (.abstain "no quoted literal left for this field")
    | [only] => .ok (resolution only.2)
    | untyped =>
      match untyped.find? fun row => labelPicks goal (asciiWords ctx.fieldLabel) row.1 with
      | some selected => .ok (resolution selected.2)
      | none => .error .ambiguous
  else match firstQuoted goal with
    | some quoted => if quoted.isEmpty then .error .missing else .ok (resolution quoted)
    | none =>
      match typeIntoPattern goal ctx.fieldLabel with
      | some v => .ok (resolution v)
      | none =>
        match fillWithPattern goal ctx.fieldLabel with
        | some v => .ok (resolution v)
        | none => .error .missing

end GpuiAgent
