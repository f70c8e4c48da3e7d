import GpuiAgent.Framework.Arbitration
import GpuiAgent.Policy.Evidence
import GpuiAgent.Recipe.Schema

namespace GpuiAgent

open Framework

/-- A schema with the texts that an intent is compared with. -/
structure DescribedSchema extends OpSchema where
  description : String
  keywords : List String
  deriving DecidableEq

/-- A registry and the texts of its schemas, by their names. -/
structure Catalog where
  registry : Registry
  description : String → String
  keywords : String → List String

namespace Catalog

def describe (catalog : Catalog) (schema : OpSchema) : DescribedSchema :=
  ⟨schema, catalog.description schema.name, catalog.keywords schema.name⟩

/-- The candidates of a resolution: ids are click targets, not operations. -/
def schemas (catalog : Catalog) : List DescribedSchema :=
  ((catalog.registry.schemas.toList.map fun row => catalog.describe row.2).filter fun s =>
    s.kind ≠ .id)

theorem name_injOn {catalog : Catalog} {s t : DescribedSchema} (hs : s ∈ catalog.schemas)
    (ht : t ∈ catalog.schemas) (h : s.name = t.name) : s = t := by
  simp only [schemas, List.mem_filter, List.mem_map, Prod.exists] at hs ht
  obtain ⟨⟨name, schema, hrow, rfl⟩, -⟩ := hs
  obtain ⟨⟨name', schema', hrow', rfl⟩, -⟩ := ht
  rw [Std.TreeMap.mem_toList_iff_getElem?_eq_some] at hrow hrow'
  have hname : name = name' :=
    (catalog.registry.named name schema hrow).symm.trans
      (h.trans (catalog.registry.named name' schema' hrow'))
  subst hname
  rw [hrow, Option.some_inj] at hrow'
  rw [hrow']

theorem schemas_nodup (catalog : Catalog) : catalog.schemas.Nodup := by
  have hkeys : (catalog.registry.schemas.toList.map Prod.fst).Nodup := by
    rw [Std.TreeMap.map_fst_toList_eq_keys]
    exact Std.TreeMap.nodup_keys
  refine List.Nodup.filter _ (List.Nodup.map_on ?_ (List.Nodup.of_map _ hkeys))
  intro row hrow row' hrow' heq
  obtain ⟨name, schema⟩ := row
  obtain ⟨name', schema'⟩ := row'
  have hschema : schema = schema' := congrArg DescribedSchema.toOpSchema heq
  rw [Std.TreeMap.mem_toList_iff_getElem?_eq_some] at hrow hrow'
  rw [← catalog.registry.named name schema hrow, ← catalog.registry.named name' schema' hrow',
    hschema]

end Catalog

namespace InstinctResolve

/-- Raw evidence below which scores stay unscaled. -/
def RAW_MIN : Nat := 500

def CLICK_VERBS : List String := ["click", "press", "tap", "push", "activate"]

def KEY_NAMES : List String := ["key", "enter", "backspace", "return", "escape", "tab", "space"]

/-- A number, or an identifier with a dash. -/
def isIdLike (tok : List Char) : Bool :=
  !tok.isEmpty && (tok.all Char.isDigit ||
    (tok.contains '-' && tok.all fun c => c.isAlphanum || c = '-'))

def isQuote (c : Char) : Bool := c = '"' || c = '\x27'

/-- The words of an intent outside of its quotes that are not ids. -/
def operationWords (openQuote : Option Char) : List String → List (List Char)
  | [] => []
  | raw :: raws =>
    let tok := trimEndMatches (fun c => ['.', ',', ':', ';', ')', '('].contains c) raw.toList
    match openQuote, tok.head?.filter isQuote with
    | some q, _ => operationWords (if tok.getLast? = some q then none else some q) raws
    | none, some q =>
      operationWords (if 1 < tok.length ∧ tok.getLast? = some q then none else some q) raws
    | none, none =>
      if isIdLike tok then operationWords none raws else tok :: operationWords none raws

def operationText (intent : String) : String :=
  " ".intercalate ((operationWords none (splitWhitespace intent)).map String.ofList)

def opHas (opTokens : List String) (tok : String) : Bool :=
  opTokens.any fun t => eqIgnoreAsciiCase t tok

/-- In how many schemas a token stands; none where it stands in none. -/
def tokenDf (schemas : List DescribedSchema) (field : DescribedSchema → List String)
    (token : String) : Option Nat :=
  let df := schemas.countP fun s => (field s).contains token
  if df = 0 then none else some df

def weight (df : String → Option Nat) (t : String) : Nat := 1000 / max ((df t).getD 1) 1

/-- The weights of the tokens that were matched, and of all of them. -/
def zoneOverlap (opTokens candidate : List String) (df : String → Option Nat) : Nat × Nat :=
  candidate.foldl (fun zone t =>
    (if opHas opTokens t then zone.1 + weight df t else zone.1, zone.2 + weight df t)) (0, 0)

def boundary (c : Char) : Bool := !(c.isAlphanum || c = '_' || c = '-')

/-- `name` stands in the text as a whole word; `before` is the character in front of the text. -/
def nameInIntentFrom (name : List Char) (before : Option Char) : List Char → Bool
  | [] => false
  | c :: cs =>
    (name.isPrefixOf (c :: cs) && before.all boundary &&
      ((c :: cs).drop name.length).head?.all boundary) || nameInIntentFrom name (some c) cs

def nameInIntentLowered (hay name : String) : Bool :=
  nameInIntentFrom (toAsciiLowercase name).toList none hay.toList

variable (lex : Lexicon)

def tokensIter (text : String) : List String :=
  ((splitChars (fun c => !lex.isAlphanumeric c) text.toList).filter fun s => !s.isEmpty).map
    String.ofList

/-- A token of the schema's name or one of its keywords. -/
def names (s : DescribedSchema) (word : String) : Bool :=
  (tokensIter lex s.name).any (fun t => eqIgnoreAsciiCase t word) ||
    s.keywords.any fun k => eqIgnoreAsciiCase k word

def verbBonus (verb : Option String) (s : DescribedSchema) : Nat :=
  if verb.any (names lex s) then 300 else 0

/-- The share of the intent's words that stand anywhere in a schema's texts. -/
def hitsScore (opTokens : List String) (s : DescribedSchema) : Nat :=
  let hits := opTokens.countP fun t =>
    names lex s t || (tokensIter lex s.description).any fun d => eqIgnoreAsciiCase d t
  if 0 < hits ∧ hits = opTokens.length then 300 else 150 * hits / max opTokens.length 1

variable (catalog : Catalog) (intent : String)

def opTokens : List String := tokensIter lex (operationText (trim intent))

def nameZone (s : DescribedSchema) : Nat × Nat :=
  zoneOverlap (opTokens lex intent) (tokensIter lex s.name)
    (tokenDf catalog.schemas fun s => tokensIter lex s.name)

def keywordZone (s : DescribedSchema) : Nat × Nat :=
  zoneOverlap (opTokens lex intent) s.keywords (tokenDf catalog.schemas DescribedSchema.keywords)

def identityHit (s : DescribedSchema) : Bool :=
  0 < (nameZone lex catalog intent s).1 + (keywordZone lex catalog intent s).1

/-- The first pass. -/
def base (s : DescribedSchema) : Nat :=
  1000 * (nameZone lex catalog intent s).1 / max (nameZone lex catalog intent s).2 1 +
    1000 * (keywordZone lex catalog intent s).1 / max (keywordZone lex catalog intent s).2 1 +
    verbBonus lex (opTokens lex intent).head? s

/-- The overlap of the lexicon with the name and the keywords. -/
def overlap (s : DescribedSchema) : Nat :=
  let blob := s.name ++ " " ++ " ".intercalate s.keywords
  (lex.lexicalOverlap (operationText (trim intent)) blob).elim 0 Confidence.get

/-- The raw score of the code: the second pass is for schemas with an identity hit. -/
def gatedRaw (s : DescribedSchema) : Nat :=
  if identityHit lex catalog intent s then
    base lex catalog intent s + hitsScore lex (opTokens lex intent) s + overlap lex intent s
  else base lex catalog intent s

/-- The same score with the second pass for every schema. -/
def fullRaw (s : DescribedSchema) : Nat :=
  base lex catalog intent s + hitsScore lex (opTokens lex intent) s + overlap lex intent s

def exact (s : DescribedSchema) : Bool :=
  nameInIntentLowered (toAsciiLowercase (trim intent)) s.name

def keyNamed : Bool :=
  (opTokens lex intent).any fun t => KEY_NAMES.any fun k => eqIgnoreAsciiCase t k

def clickVerb : Bool :=
  (opTokens lex intent).head?.any fun v => CLICK_VERBS.any fun c => eqIgnoreAsciiCase v c

/-- A click verb speaks against every other operation, or against the click where a key is named. -/
def vetoed (s : DescribedSchema) : Bool :=
  clickVerb lex intent && if keyNamed lex intent then s.name = "click" else s.name ≠ "click"

section Gate

variable (raw : DescribedSchema → Nat)

def topRaw (field : List DescribedSchema) : Nat := (field.map raw).foldr max 0

def scaled (field : List DescribedSchema) (s : DescribedSchema) : Nat :=
  if RAW_MIN ≤ topRaw raw field then NON_EXACT_CAP * raw s / topRaw raw field else raw s

def millis (field : List DescribedSchema) (s : DescribedSchema) : Nat :=
  let millis := if exact intent s then 1000 else scaled raw field s
  if vetoed lex intent s then min millis 500 else millis

def candidates (field : List DescribedSchema) : List (String × Confidence) :=
  (field.filter fun s => exact intent s || 0 < raw s).map fun s =>
    (s.name, .saturating (millis lex intent raw field s))

/-- The standard gate: evidence of at least 750, and 150 more than the next. -/
def choose (candidates : List (String × Confidence)) : Option String :=
  arbitrate 750 150 (candidates.map fun c => (c.1, c.2.get))

/-- What the gate makes of some raw scores. -/
def decision (field : List DescribedSchema) : Option String :=
  if (trim intent).isEmpty then none else choose (candidates lex intent raw field)

end Gate

/-- The schema an intent is resolved to. -/
def resolve : Option String :=
  decision lex intent (gatedRaw lex catalog intent) catalog.schemas

/-- The schema it would be resolved to without the survivor gate. -/
def resolveUngated : Option String :=
  decision lex intent (fullRaw lex catalog intent) catalog.schemas

end InstinctResolve

end GpuiAgent
