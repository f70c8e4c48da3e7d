import GpuiAgent.Policy.Evidence
import GpuiAgent.Tree.UiTree

namespace GpuiAgent

open Framework

/-- A field whose payload is never asked from an endpoint. -/
def sensitiveField (lex : Lexicon) (role label : String) : Bool :=
  eqIgnoreAsciiCase role "password" || contains (lex.strLowercase label) "password"

/-- How one clause runs. -/
inductive ClauseMode where
  | act
  | waitFor (target : String)
  deriving DecidableEq

/-- Strip the endings of a wait target; every one that is stripped shortens it. -/
def stripWaitEndings : Nat → String → String
  | 0, target => target
  | n + 1, target =>
    let stripped := stripSuffix target " appears" <|> stripSuffix target " shows" <|>
      stripSuffix target " in the list"
    match stripped with
    | some next => stripWaitEndings n (trim next)
    | none => target

/-- What a clause that starts with one of `prefixes` waits for. Outside the `some`, the slice after
the prefix does not start at a character. -/
def waitTarget (trimmed lower : String) : List String → Option (Option String)
  | [] => some none
  | pre :: prefixes =>
    if startsWith lower pre then
      match dropBytes pre.utf8ByteSize trimmed.toList with
      | none => none
      | some rest =>
        let target := trim (.ofList rest)
        let target := stripWaitEndings target.length target
        let target := trim (trimMatches (· = '"') target)
        if target.isEmpty then waitTarget trimmed lower prefixes else some (some target)
    else waitTarget trimmed lower prefixes

/-- The text and the mode of a clause; none where a slice panics. -/
def clauseMode (lex : Lexicon) (clause : String) : Option (String × ClauseMode) :=
  let trimmed := trim clause
  let lower := lex.strLowercase trimmed
  (waitTarget trimmed lower ["wait for ", "wait until "]).map fun
    | some target => (trimmed, .waitFor target)
    | none => (trimmed, .act)

def WAIT_PATTERNS : List String :=
  [" and wait for ", " and wait until ", " wait for ", " wait until "]

/-- Scan a clause for a wait pattern outside quotes: `i` is the byte position of the rest, `before`
the part read so far in reverse. None where a slice panics. -/
def splitWaitFrom (clause : String) (lower : List Char) (quote : Bool) (i : Nat)
    (before : List Char) : List Char → Option (List String)
  | [] => some [clause]
  | c :: cs =>
    if c = '"' then splitWaitFrom clause lower (!quote) (i + c.utf8Size) (c :: before) cs
    else if quote then splitWaitFrom clause lower quote (i + c.utf8Size) (c :: before) cs
    else match dropBytes i lower with
      | none => none
      | some rest =>
        match WAIT_PATTERNS.find? fun pat => pat.toList.isPrefixOf rest with
        | none => splitWaitFrom clause lower quote (i + c.utf8Size) (c :: before) cs
        | some pat =>
          match dropBytes (if startsWith pat " and" then 5 else 1) (c :: cs) with
          | none => none
          | some tail =>
            let head := trimEndMatches (fun c => c = ' ' || c = ',') before.reverse
            let out := [head, trimStart tail].filter fun piece => !piece.isEmpty
            some (if 1 < out.length then out.map String.ofList else [clause])

/-- Split a trailing wait instruction off a clause. -/
def splitWait (lex : Lexicon) (clause : String) : Option (List String) :=
  splitWaitFrom clause (lex.strLowercase clause).toList false 0 [] clause.toList

/-- Replace the first pronoun of a list of words by the quoted text. -/
def replacePronoun (last : String) : List String → List String
  | [] => []
  | word :: words =>
    if ["it", "It", "them", "Them"].contains word then ("\"" ++ last ++ "\"") :: words
    else word :: replacePronoun last words

/-- A clause without a literal refers to the text typed last. -/
def substitutePronouns (clause : String) (typed : List String) : String :=
  match typed.getLast? with
  | none => clause
  | some last =>
    if clause.toList.contains '"' then clause
    else " ".intercalate
      (replacePronoun last ((splitChars (· = ' ') clause.toList).map String.ofList))

/-- `hay` has every word of `needle`. -/
def coversWords (hay needle : String) : Bool :=
  (splitWhitespace needle).all fun w => (splitWhitespace hay).any fun t => eqIgnoreAsciiCase t w

/-- A visible node's name covers the target. -/
def onScreen (tree : UiTree) (target : String) : Bool :=
  tree.subtrees.any fun row => row.2.label.visible && coversWords row.2.label.name target

end GpuiAgent
