import GpuiAgent.Framework.RustString

namespace GpuiAgent

open Framework

/-- Instinct confidence in thousandths. -/
structure Confidence where
  get : Nat
  le_max : get ≤ 1000
  deriving DecidableEq

namespace Confidence

def ZERO : Confidence := ⟨0, by decide⟩

def MAX : Confidence := ⟨1000, le_rfl⟩

/-- Clamp to the range. -/
def saturating (n : Nat) : Confidence := ⟨min n 1000, min_le_right _ _⟩

def saturatingAdd (a b : Confidence) : Confidence := saturating (a.get + b.get)

end Confidence

/-- What scoring takes from the Unicode tables and from the lexicon crates: character classes, case
mapping of a character and of a string, and the overlap of a candidate's words with a goal. -/
structure Lexicon where
  isAlphanumeric : Char → Bool
  charLowercase : Char → List Char
  strLowercase : String → String
  lexicalOverlap : String → String → Option Confidence

/-- The ASCII part of the tables, without a lexicon. -/
def Lexicon.ascii : Lexicon where
  isAlphanumeric := Char.isAlphanum
  charLowercase c := [c.toLower]
  strLowercase := toAsciiLowercase
  lexicalOverlap _ _ := none

def NON_EXACT_CAP : Nat := 849

def UNNAMED_OPERATION_CAP : Nat := 500

/-- The operations a goal can name. -/
inductive OperationKind where
  | click | typeText | select | done | blocked | wait | scrollDown | scrollUp | setValue | key
  | keybinding | invoke
  deriving DecidableEq

namespace OperationKind

def asStr : OperationKind → String
  | click => "click"
  | typeText => "type_text"
  | select => "select"
  | done => "done"
  | blocked => "blocked"
  | wait => "wait"
  | scrollDown => "scroll_down"
  | scrollUp => "scroll_up"
  | setValue => "set_value"
  | key => "key"
  | keybinding => "keybinding"
  | invoke => "invoke"

def isControl : OperationKind → Bool
  | done | blocked | wait | scrollDown | scrollUp => true
  | _ => false

end OperationKind

/-- A candidate to score. -/
structure EvidenceTarget where
  id : String
  label : String
  role : Option String
  kind : OperationKind

/-- Evidence about one clause, computed once for every decision. -/
structure GoalEvidence where
  literals : List String := []
  unplacedLiteral : Bool := false
  verb : String := ""
  toggleIntent : Bool := false
  locatives : List String := []
  navLocatives : List String := []
  payloadTarget : Option String := none
  soleCheckbox : Option String := none
  hasLiteral : Bool := false

/-- The texts between quotes; `quote` is the closing quote of the segment being read. An empty or
unterminated segment gives nothing. -/
def quotedLiteralsFrom : Option (Char × List Char) → List Char → List String
  | _, [] => []
  | none, c :: cs =>
    if c = '"' then quotedLiteralsFrom (some ('"', [])) cs
    else if c = '\u201c' then quotedLiteralsFrom (some ('\u201d', [])) cs
    else quotedLiteralsFrom none cs
  | some (close, text), c :: cs =>
    if c = close then
      if text.isEmpty then quotedLiteralsFrom none cs
      else .ofList text.reverse :: quotedLiteralsFrom none cs
    else quotedLiteralsFrom (some (close, c :: text)) cs

def quotedLiterals (goal : String) : List String := quotedLiteralsFrom none goal.toList

/-- The text outside quotes, each quoted span replaced by `mark`. -/
def unquotedFrom (mark : List Char) : Option Char → List Char → List Char
  | _, [] => []
  | none, c :: cs =>
    if c = '"' then mark ++ unquotedFrom mark (some '"') cs
    else if c = '\u201c' then mark ++ unquotedFrom mark (some '\u201d') cs
    else c :: unquotedFrom mark none cs
  | some close, c :: cs =>
    if c = close then unquotedFrom mark none cs else unquotedFrom mark (some close) cs

def unquotedText (goal : String) : String := .ofList (unquotedFrom [] none goal.toList)

/-- `hay` holds `needle` as a contiguous run. -/
def containsRun (hay needle : List String) : Bool := hay.tails.any fun t => needle.isPrefixOf t

/-- One word is the other, or a prefix of it of at least four bytes. -/
def stemEq (a b : String) : Bool :=
  a = b || (4 ≤ min a.utf8ByteSize b.utf8ByteSize && (startsWith a b || startsWith b a))

def VERB_SYNONYMS : List (String × List String) :=
  [("collapse", ["hide", "collapse", "minimize"]), ("expand", ["show", "expand", "maximize"]),
    ("open", ["open", "show"]), ("close", ["close", "hide", "dismiss"]),
    ("quit", ["quit", "exit", "close"]), ("delete", ["delete", "remove", "trash"]),
    ("add", ["add", "create", "new"]), ("mark", ["mark", "check", "tick"]),
    ("toggle", ["toggle", "flip", "switch"])]

def STATE_WORDS : List String :=
  ["done", "on", "off", "checked", "unchecked", "complete", "completed", "enabled", "disabled",
    "open", "closed", "marked", "set", "toggled", "shown", "hidden"]

def COVER_STOP : List String :=
  ["the", "a", "an", "as", "in", "on", "to", "into", "from", "at", "by", "of", "for", "and", "then",
    "it", "them", "that", "this", "with"]

def LEADING_VERBS : List String :=
  ["click", "press", "tap", "type", "enter", "fill", "input", "select", "choose", "pick", "open"]

def CONNECTIVES : List String := ["into", "in", "on", "to", "the", "a", "an", "from", "as"]

/-- Drop the connectives that follow a stripped verb or a quoted span. -/
def dropConnectives (afterMarker : Bool) : List String → List String
  | [] => []
  | w :: ws =>
    if w = "\x00" then dropConnectives true ws
    else if afterMarker && CONNECTIVES.any fun c => eqIgnoreAsciiCase w c then
      dropConnectives afterMarker ws
    else w :: dropConnectives false ws

/-- The goal without its quoted spans, a leading operation verb and the connectives after them. -/
def targetPhrase (goal : String) : Option String :=
  let words := splitWhitespace (.ofList (unquotedFrom [' ', '\x00', ' '] none goal.toList))
  let stripped := words.head?.any fun first => LEADING_VERBS.any fun v => eqIgnoreAsciiCase first v
  let words := if stripped then words.tail else words
  let firstWord := words.find? fun w => w ≠ "\x00"
  let out := dropConnectives stripped words
  let ownVerb := words.contains "\x00" && !stripped &&
    (out.head?.any fun a => firstWord.any fun b => eqIgnoreAsciiCase a b)
  let out := if ownVerb then out.tail else out
  let phrase := " ".intercalate out
  if phrase.isEmpty then none else some phrase

section Score

variable (lex : Lexicon)

def fold (s : String) : String :=
  .ofList ((s.toList.flatMap lex.charLowercase).filter fun c => !isWhitespace c)

def eqFold (a b : String) : Bool := fold lex a = fold lex b

/-- Lower-case runs of alphanumeric characters; `buf` is the current one in reverse. -/
def tokenizeFrom (buf : List Char) : List Char → List String
  | [] => if buf.isEmpty then [] else [.ofList buf.reverse]
  | c :: cs =>
    if lex.isAlphanumeric c then tokenizeFrom ((lex.charLowercase c).reverse ++ buf) cs
    else if buf.isEmpty then tokenizeFrom [] cs
    else .ofList buf.reverse :: tokenizeFrom [] cs

def tokenize (text : String) : List String := tokenizeFrom lex [] text.toList

def significantTokens (text : String) : List String :=
  (tokenize lex text).filter fun t => !COVER_STOP.contains t

/-- The words a clause acts on. -/
def objectTokens (goal : String) (ctx : GoalEvidence) : List String :=
  let words := ctx.literals.flatMap (tokenize lex) ++ significantTokens lex goal
  let object := words.foldl (fun object t => if object.contains t then object else object ++ [t]) []
  object.filter fun t =>
    !stemEq t ctx.verb && !ctx.locatives.contains t && !STATE_WORDS.contains t

def objectCovered (goal label : String) (ctx : GoalEvidence) : Bool :=
  let labelTokens := tokenize lex label
  let object := objectTokens lex goal ctx
  !object.isEmpty && object.all fun t => labelTokens.any fun lt => stemEq lt t

def verbMatches (verb label : String) : Bool :=
  let labelTokens := tokenize lex label
  (labelTokens.any fun t => stemEq t verb) ||
    VERB_SYNONYMS.any fun (key, synonyms) =>
      stemEq key verb && synonyms.any fun s => labelTokens.contains s

def tokensEqual (goal label : String) : Bool :=
  let g := significantTokens lex goal
  let l := significantTokens lex label
  !g.isEmpty && !l.isEmpty && (g.all fun t => l.any fun lt => stemEq lt t) &&
    l.all fun t => g.any fun lt => stemEq lt t

def isInstructionEnd (c : Char) : Bool := ['.', ';', '!', '?', ',', '\n'].contains c

/-- The tokens of a goal's clauses, conditional clauses left out. -/
def instructionTokens (goal : String) : List String :=
  (splitChars isInstructionEnd goal.toList).flatMap fun clause =>
    let tokens := tokenizeFrom lex [] clause
    if tokens.head?.any fun t => ["if", "unless", "otherwise"].contains t then [] else tokens

def matchesInstructionTokens (tokens : List String) (keys : List (List String)) : Bool :=
  keys.any fun key => containsRun tokens key

def controlKeywords : OperationKind → List (List String)
  | .done => [["done"], ["finished"], ["complete"], ["completed"]]
  | .blocked => [["blocked"], ["stuck"], ["impossible"]]
  | .wait => [["wait"], ["pause"], ["loading"]]
  | .scrollDown =>
    [["scroll", "down"], ["scroll", "page"], ["page", "down"], ["scrolldown"], ["pagedown"]]
  | .scrollUp => [["scroll", "up"], ["page", "up"], ["scrollup"], ["pageup"]]
  | .click => [["click"], ["press"], ["tap"]]
  | .typeText => [["type"], ["enter"], ["fill"], ["input"]]
  | .select => [["select"], ["choose"], ["pick"]]
  | .setValue => [["set"], ["change"], ["update"]]
  | .key =>
    [["press", "enter"], ["hit", "enter"], ["press", "return"], ["send", "enter"],
      ["press", "tab"], ["press", "escape"], ["press", "backspace"], ["press", "space"],
      ["keypress"], ["submit"]]
  | .keybinding => [["shortcut"], ["hotkey"], ["keybinding"]]
  | .invoke => [["invoke"], ["run"], ["call"], ["execute"], ["trigger"]]

def controlKeywordHit (goal : String) (kind : OperationKind) : Bool :=
  matchesInstructionTokens (instructionTokens lex goal) (controlKeywords kind)

def namedTargetOperations (goal : String) : List OperationKind :=
  [OperationKind.click, .typeText, .select, .setValue, .key, .keybinding, .invoke].filter
    (controlKeywordHit lex goal)

def roleKey : String → Option String
  | "button" => some "button"
  | "link" => some "link"
  | "textbox" | "field" | "combobox" => some "text"
  | "checkbox" => some "checkbox"
  | "menuitem" | "option" => some "menu"
  | "tab" => some "tab"
  | "dialog" => some "dialog"
  | "navigation" | "nav" => some "nav"
  | "listbox" | "list" => some "list"
  | _ => none

def roleMentioned (goal role : String) : Bool :=
  (roleKey role).any fun key => contains (fold lex goal) key

def doneLanguage (goal : String) : Bool :=
  matchesInstructionTokens (instructionTokens lex goal)
    [["done"], ["finish"], ["finished"], ["complete"], ["completed"], ["success"], ["successful"],
      ["submitted"]]

def doneSuppressed (kind : OperationKind) (ctx : GoalEvidence) : Bool :=
  kind = .done && ctx.hasLiteral

/-- Operation keywords count outside quotes only. -/
def keywordGoal (goal : String) (ctx : GoalEvidence) : String :=
  if ctx.hasLiteral then unquotedText goal else goal

def exactLabelCtx (goal : String) (target : EvidenceTarget) (ctx : GoalEvidence) : Bool :=
  eqFold lex goal target.label ||
    ((targetPhrase goal).any fun p => eqFold lex p target.label) ||
    (target.kind.isControl && !doneSuppressed target.kind ctx &&
      (eqFold lex goal target.kind.asStr ||
        controlKeywordHit lex (keywordGoal goal ctx) target.kind))

/-- How many of the goal's tokens the label has. -/
def tokenHits (goal label : String) : Nat :=
  let labelTokens := tokenize lex label
  ((tokenize lex goal).filter fun t => labelTokens.contains t).length

def scaleByCoverage (conf : Confidence) (goal label : String) : Confidence :=
  let goalTokens := tokenize lex goal
  if goalTokens.isEmpty then .ZERO
  else .saturating (conf.get * tokenHits lex goal label / goalTokens.length)

def coversMost (goal label : String) : Bool :=
  let goalTokens := tokenize lex goal
  !goalTokens.isEmpty && goalTokens.length * 2 ≤ tokenHits lex goal label * 3

def sliverScaled (kind : OperationKind) : Bool := kind = .click

/-- The goal while a payload is still to be placed: without its verb. -/
def stripVerb (goal : String) (ctx : GoalEvidence) : String :=
  if ctx.unplacedLiteral then
    let toks := splitWhitespace goal
    let toks := if toks.head?.any fun t => stemEq (lex.strLowercase t) ctx.verb then toks.tail
      else toks
    " ".intercalate toks
  else goal

/-- The label evidence of a goal that is not the label itself. -/
def labelEvidence (goal : String) (target : EvidenceTarget) (ctx : GoalEvidence) : Confidence :=
  let label := target.label
  let whole := !sliverScaled target.kind || coversMost lex goal label
  let score := match lex.lexicalOverlap goal label with
    | some ov => if whole then ov else scaleByCoverage lex ov goal label
    | none => .ZERO
  let g := fold lex goal
  let l := fold lex label
  let score :=
    if !l.isEmpty && contains g l && whole then score.saturatingAdd (.saturating 250)
    else if !g.isEmpty && contains l g then score.saturatingAdd (.saturating 200)
    else score
  let hits := tokenHits lex goal label
  let total := (tokenize lex goal).length
  let score :=
    if hits = total ∧ 0 < hits then score.saturatingAdd (.saturating 300)
    else if 0 < hits then score.saturatingAdd (.saturating (hits * 150 / total))
    else score
  let score :=
    if target.role.any fun role => roleMentioned lex goal role then
      score.saturatingAdd (.saturating 80)
    else score
  if target.kind = .done && !doneSuppressed target.kind ctx && doneLanguage lex goal then
    score.saturatingAdd (.saturating 100)
  else score

def scoreActionTextCtx (goal : String) (target : EvidenceTarget) (ctx : GoalEvidence) :
    Confidence :=
  if eqFold lex goal target.label then .MAX
  else if target.kind.isControl && eqFold lex goal target.kind.asStr then .MAX
  else
    let goal := stripVerb lex (keywordGoal goal ctx) ctx
    if target.kind.isControl && !doneSuppressed target.kind ctx &&
        controlKeywordHit lex goal target.kind then .saturating 920
    else labelEvidence lex goal target ctx

def scoreActionBestCtx (goal : String) (target : EvidenceTarget) (ctx : GoalEvidence) :
    Confidence :=
  let whole := scoreActionTextCtx lex goal target ctx
  match targetPhrase goal with
  | some phrase =>
    if phrase = goal then whole
    else
      let p := scoreActionTextCtx lex phrase target ctx
      if whole.get < p.get then p else whole
  | none => whole

/-- A bonus that lifts only an exact label past the cap. -/
def soft (exact : Bool) (best : Confidence) (bonus : Nat) : Confidence :=
  if exact then .saturating (best.get + bonus)
  else .saturating (min (best.get + bonus) NON_EXACT_CAP)

def scoreActionCtx (goal : String) (target : EvidenceTarget) (ctx : GoalEvidence) : Confidence :=
  let covered := objectCovered lex goal target.label ctx
  let checkbox := ctx.toggleIntent && target.role = some "checkbox"
  let best := ctx.literals.foldl (fun best literal =>
    let lit := min (scoreActionTextCtx lex literal target ctx).get NON_EXACT_CAP
    if best.get < lit then .saturating lit else best) (scoreActionBestCtx lex goal target ctx)
  let exact := exactLabelCtx lex goal target ctx || tokensEqual lex goal target.label ||
    (checkbox && covered)
  let best := if best = .MAX && !exact then .saturating NON_EXACT_CAP else best
  let best :=
    if !ctx.unplacedLiteral && !ctx.verb.isEmpty && verbMatches lex ctx.verb target.label then
      soft exact best (if covered then 650 else 500)
    else best
  let best :=
    if ctx.navLocatives.any fun w => eqFold lex w target.label then soft exact best 600 else best
  let best :=
    if checkbox then
      let bonus := (if ctx.soleCheckbox = some target.id then 700 else 300) +
        if covered then 150 else 0
      if exact then best.saturatingAdd (.saturating bonus) else soft exact best bonus
    else best
  if target.kind = .typeText ∧ ctx.payloadTarget = some target.id then
    best.saturatingAdd (.saturating 850)
  else best

def scoreOperationCtx (goal : String) (kind : OperationKind) (bestTarget : Option EvidenceTarget)
    (ctx : GoalEvidence) : Confidence :=
  let kwGoal := keywordGoal goal ctx
  let score :=
    if controlKeywordHit lex kwGoal kind && !doneSuppressed kind ctx then .saturating 920
    else .ZERO
  if eqFold lex goal kind.asStr then .MAX
  else match bestTarget with
    | some target =>
      let t := scoreActionCtx lex goal target ctx
      let score := if score.get < t.get then t else score
      let named := namedTargetOperations lex kwGoal
      if !named.isEmpty && !named.contains kind then
        .saturating (min score.get UNNAMED_OPERATION_CAP)
      else score
    | none => if kind.isControl then score.saturatingAdd (.saturating 50) else score

end Score

end GpuiAgent
