import GpuiAgent.Framework.Escape
import GpuiAgent.Framework.Lines
import GpuiAgent.Recipe.Recipe

namespace GpuiAgent

open Framework

/-- Where the tokenizer stands: outside quotes, inside, or inside behind a backslash. -/
inductive Quoting where
  | plain
  | quoted (quote : Char)
  | escaped (quote : Char)

/-- The tokens of the rest of a line, `buf` the token that is being read. -/
def Wants.tokenizeFrom (mode : Quoting) (buf : List Char) : List Char → Except String (List String)
  | [] => match mode with
    | .plain => return if buf.isEmpty then [] else [.ofList buf]
    | _ => throw "unterminated quote"
  | c :: cs => match mode with
    | .plain =>
      if c = '"' || c = '\x27' then Wants.tokenizeFrom (.quoted c) buf cs
      else if isWhitespace c then
        if buf.isEmpty then Wants.tokenizeFrom .plain [] cs
        else return .ofList buf :: (← Wants.tokenizeFrom .plain [] cs)
      else Wants.tokenizeFrom .plain (buf ++ [c]) cs
    | .quoted quote =>
      if c = quote then
        -- a quoted text may be empty, and may go on behind its quote
        if cs.head?.all isWhitespace then
          return .ofList buf :: (← Wants.tokenizeFrom .plain [] cs)
        else Wants.tokenizeFrom .plain buf cs
      else if c = '\\' then Wants.tokenizeFrom (.escaped quote) buf cs
      else Wants.tokenizeFrom (.quoted quote) (buf ++ [c]) cs
    | .escaped quote => Wants.tokenizeFrom (.quoted quote) (buf ++ [c]) cs

def Wants.tokenize (line : String) : Except String (List String) :=
  Wants.tokenizeFrom .plain [] line.toList

def DeliveryMode.fromStr (s : String) : Except String DeliveryMode :=
  match toAsciiLowercase (trim s) with
  | "semantic" | "" => .ok .semantic
  | "virtual" => .ok .virtual
  | other => .error s!"unknown delivery `{other}` (want semantic or virtual)"

def KeybindingScope.fromStr (s : String) : Except String KeybindingScope :=
  match toAsciiLowercase (trim s) with
  | "focused" => .ok .focused
  | "global" => .ok .global
  | other => .error s!"unknown keybinding scope `{other}` (want focused or global)"

def ScreenshotMode.fromStr (s : String) : Except String ScreenshotMode :=
  match toAsciiLowercase (trim s) with
  | "viewport" | "" => .ok .viewport
  | "scrolled" => .ok .scrolled
  | other => .error s!"unknown screenshot mode `{other}` (want viewport or scrolled)"

/-- The index loop of a parser: each token is read with those behind it and says how many of them
it used. -/
def readTokens {σ : Type} (read : σ → String → List String → Except String (σ × Nat)) :
    Nat → σ → List String → Except String σ
  | _, s, [] => .ok s
  | skip + 1, s, _ :: rest => readTokens read skip s rest
  | 0, s, token :: rest => do
    let (s, used) ← read s token rest
    readTokens read used s rest

/-- The token behind a flag. -/
def flagValue (rest : List String) (missing : String) : Except String String :=
  match rest with
  | [] => .error missing
  | value :: _ => .ok value

/-- A flag that `true` or `false` may follow, and how many tokens it used. -/
def parseOptionalBoolFlag (rest : List String) : Bool × Nat :=
  if rest.head? = some "true" then (true, 1)
  else if rest.head? = some "false" then (false, 1)
  else (true, 0)

def parseBool (raw : String) : Except String Bool :=
  match raw with
  | "true" => .ok true
  | "false" => .ok false
  | other => .error s!"expected true/false, got {other}"

def takeDelivery (tokens : List String) : Except String (DeliveryMode × List String) :=
  if tokens.head? = some "--delivery" then do
    let raw ← flagValue tokens.tail "--delivery needs semantic or virtual"
    return (← DeliveryMode.fromStr raw, tokens.drop 2)
  else .ok (.semantic, tokens)

def applyAssertKv (spec : AssertSpec) (key raw : String) : Except String AssertSpec :=
  match key with
  | "name" => return { spec with name := some raw }
  | "value" => return { spec with value := some raw }
  | "role" => return { spec with role := some raw }
  | "checked" => return { spec with checked := some (← parseBool raw) }
  | "exists" => return { spec with exists' := some (← parseBool raw) }
  | "visible" => return { spec with visible := some (← parseBool raw) }
  | "in_viewport" | "in-viewport" => return { spec with inViewport := some (← parseBool raw) }
  | "target" | "id" => return { spec with target := raw }
  | other => throw s!"unknown assert field `{other}`"

def readAssertToken (spec : AssertSpec) (token : String) (rest : List String) :
    Except String (AssertSpec × Nat) :=
  if token = "--id" || token = "--target" then
    return ({ spec with target := ← flagValue rest "missing assert target" }, 1)
  else if token = "--name" then
    return ({ spec with name := some (← flagValue rest "missing --name") }, 1)
  else if token = "--value" then
    return ({ spec with value := some (← flagValue rest "missing --value") }, 1)
  else if token = "--role" then
    return ({ spec with role := some (← flagValue rest "missing --role") }, 1)
  else if token = "--checked" then
    let (flag, used) := parseOptionalBoolFlag rest
    return ({ spec with checked := some flag }, used)
  else if token = "--exists" then
    let (flag, used) := parseOptionalBoolFlag rest
    return ({ spec with exists' := some flag }, used)
  else if token = "--absent" then return ({ spec with exists' := some false }, 0)
  else if token = "--visible" then
    let (flag, used) := parseOptionalBoolFlag rest
    return ({ spec with visible := some flag }, used)
  else if token = "--in-viewport" || token = "--in_viewport" then
    let (flag, used) := parseOptionalBoolFlag rest
    return ({ spec with inViewport := some flag }, used)
  else match splitOnce '=' token with
    | some (key, raw) => return (← applyAssertKv spec key raw, 0)
    | none =>
      if spec.target.isEmpty && !startsWith token "-" then
        return ({ spec with target := token }, 0)
      else throw s!"bad assert token `{token}`"

def parseAssertSpec (tokens : List String) : Except String AssertSpec := do
  let spec ← readTokens readAssertToken 0 { target := "" } tokens
  if spec.target.isEmpty then throw "assert needs a target"
  return spec

def parseTimeoutMs (raw : String) : Except String Nat :=
  match parseU64 raw with
  | some ms => .ok ms
  | none => .error s!"bad timeout_ms `{raw}`"

/-- The timeout, and the tokens that are not about it. -/
def readWaitToken (state : Option Nat × List String) (token : String) (rest : List String) :
    Except String ((Option Nat × List String) × Nat) :=
  if token = "--timeout-ms" || token = "--timeout_ms" then do
    let raw ← flagValue rest "wait_until --timeout-ms needs a number"
    return ((some (← parseTimeoutMs raw), state.2), 1)
  else match stripPrefix token "timeout_ms=" with
    | some raw => return ((some (← parseTimeoutMs raw), state.2), 0)
    | none => return ((state.1, state.2 ++ [token]), 0)

def parseWaitUntilOp (tokens : List String) : Except String Op := do
  let (timeoutMs, rest) ← readTokens readWaitToken 0 (none, []) tokens
  let some timeoutMs := timeoutMs | throw "wait_until needs --timeout-ms"
  return .waitUntil timeoutMs (← parseAssertSpec rest)

structure KeybindingWants where
  binding : Option String := none
  chord : Option String := none
  scope : Option KeybindingScope := none
  confirm : Bool := false
  activate : Bool := false

def readKeybindingToken (state : KeybindingWants) (token : String) (rest : List String) :
    Except String (KeybindingWants × Nat) :=
  if token = "--id" || token = "--binding" then
    return ({ state with binding := some (← flagValue rest "keybinding needs --id") }, 1)
  else if token = "--scope" then do
    let raw ← flagValue rest "--scope needs focused or global"
    return ({ state with scope := some (← KeybindingScope.fromStr raw) }, 1)
  else if token = "--chord" then
    return ({ state with chord := some (← flagValue rest "--chord needs a value") }, 1)
  else if token = "--confirm" then
    let (flag, used) := parseOptionalBoolFlag rest
    return ({ state with confirm := flag }, used)
  else if token = "--activate" then
    let (flag, used) := parseOptionalBoolFlag rest
    return ({ state with activate := flag }, used)
  else if !startsWith token "-" && state.binding.isNone then
    return ({ state with binding := some token }, 0)
  else throw s!"bad keybinding token `{token}`"

def parseKeybindingWants (tokens : List String) : Except String Op := do
  let state ← readTokens readKeybindingToken 0 {} tokens
  let some binding := state.binding | throw "keybinding needs --id"
  let some scope := state.scope | throw "keybinding needs --scope focused|global"
  return .keybinding binding state.chord scope state.confirm state.activate

structure ScreenshotWants where
  path : Option String := none
  mode : ScreenshotMode := .viewport
  target : Option String := none
  maxHeightPx : Option Nat := none

def readScreenshotToken (state : ScreenshotWants) (token : String) (rest : List String) :
    Except String (ScreenshotWants × Nat) :=
  if token = "--out" then
    return ({ state with path := some (← flagValue rest "--out needs a path") }, 1)
  else if token = "--mode" then do
    let raw ← flagValue rest "--mode needs viewport or scrolled"
    return ({ state with mode := ← ScreenshotMode.fromStr raw }, 1)
  else if token = "--target" then
    return ({ state with target := some (← flagValue rest "--target needs a scroll-view id") }, 1)
  else if token = "--max-height-px" then do
    let raw ← flagValue rest "--max-height-px needs a number"
    let some px := (parseU64 raw).filter (· < 2 ^ 32) | throw s!"bad max_height_px `{raw}`"
    return ({ state with maxHeightPx := some px }, 1)
  else if startsWith token "-" then throw s!"bad screenshot token `{token}`"
  else if state.path.isNone then return ({ state with path := some token }, 0)
  else throw s!"bad screenshot token `{token}`"

def parseScreenshotOp (tokens : List String) : Except String Op := do
  let state ← readTokens readScreenshotToken 0 {} tokens
  if state.mode = .scrolled && ((state.target.map trim).getD "").isEmpty then
    throw "screenshot mode=scrolled requires --target"
  return .screenshot state.path state.mode state.target state.maxHeightPx

/-- `serde_json::Map::insert`; the entries are kept in key order. -/
def insertEntry (key : String) (value : Json) : List (String × Json) → List (String × Json)
  | [] => [(key, value)]
  | (k, v) :: entries =>
    if key < k then (key, value) :: (k, v) :: entries
    else if key = k then (key, value) :: entries
    else (k, v) :: insertEntry key value entries

section Wants

-- `serde_json::from_str` at a value
variable (fromStr : String → Option Json)

def insertArg (args : List (String × Json)) (token : String) :
    Except String (List (String × Json)) :=
  match splitOnce '=' token with
  | none => .error s!"expected KEY=VALUE, got {token}"
  | some (key, raw) => .ok (insertEntry key ((fromStr raw).getD (.string raw)) args)

/-- The op that the tokens of a step name; `args` are those behind the name. -/
def parseWantsOp (opName : String) (args : List String) : Except String Op :=
  match opName with
  | "wait" => return .wait none
  | "wait_until" => parseWaitUntilOp args
  | "hello" => return .hello
  | "snapshot" => return .snapshot none none none
  | "revision" => return .revision
  | "shutdown" => return .shutdown
  | "click" => do
    let (delivery, rest) ← takeDelivery args
    let target ← flagValue rest "click needs a target"
    return .click target delivery none
  | "type" => do
    let (delivery, rest) ← takeDelivery args
    let target :: text :: _ := rest | throw "type needs target and text"
    return .type target text delivery none
  | "set_value" => do
    let target :: value :: _ := args | throw "set-value needs target and value"
    return .setValue target value none
  | "key" => do
    let (delivery, rest) ← takeDelivery args
    let target :: key :: _ := rest | throw "key needs target and key name"
    return .key target key delivery none
  | "keybindings" | "keybinding.list" => return .keybindings
  | "keybinding" => parseKeybindingWants args
  | "assert" => return .assert (← parseAssertSpec args)
  | "screenshot" => parseScreenshotOp args
  | "invoke" => do
    let name :: args := args | throw "invoke needs a name"
    return .invoke name (.object (← args.foldlM (insertArg fromStr) []))
  | other => throw s!"unknown op `{other}`"

def parseWantsStep (tokens : List String) (id : String) : Except String RecipeStep := do
  let screenshot := tokens.contains "--screenshot"
  let opName :: args := tokens.filter (· ≠ "--screenshot") | throw "missing op"
  let op ← parseWantsOp fromStr (replace opName "-" "_") args
  return { id, screenshot, op }

/-- One line of a wants text, the number of lines before it with it. -/
def parseWantsLine (steps : List RecipeStep) (raw : String × Nat) :
    Except String (List RecipeStep) := do
  let line := trim raw.1
  if line.isEmpty || startsWith line "#" then return steps
  let tokens ← Wants.tokenize line
  if tokens.isEmpty then return steps
  match parseWantsStep fromStr tokens s!"s{steps.length + 1}" with
  | .ok step => return steps ++ [step]
  | .error err => throw s!"line {raw.2 + 1}: {err}"

/-- `str::lines`. -/
def lines (text : String) : List String :=
  (rawLines '\n' text.toList).map fun line =>
    .ofList (if line.ended && line.body.getLast? = some '\r' then line.body.dropLast else line.body)

def parseWants (text name : String) : Except String Recipe := do
  let steps ← (lines text).zipIdx.foldlM (parseWantsLine fromStr) []
  if steps.isEmpty then throw "recipe has no steps"
  let params := (steps.flatMap fun step => collectPlaceholdersInOp step.op).dedup
  return { name, params := params.insertionSort (· ≤ ·), steps }

end Wants

section Tokenize

/-- A character that is a token's own outside quotes. -/
def TokenChar (c : Char) : Prop := isWhitespace c = false ∧ c ≠ '"' ∧ c ≠ '\x27'

instance : DecidablePred TokenChar := fun _ => inferInstanceAs (Decidable (_ ∧ _ ∧ _))

theorem Wants.tokenizeFrom_word {word : List Char} (h : ∀ c ∈ word, TokenChar c)
    (buf cs : List Char) :
    Wants.tokenizeFrom .plain buf (word ++ cs) = Wants.tokenizeFrom .plain (buf ++ word) cs := by
  induction word generalizing buf with
  | nil => rw [List.nil_append, List.append_nil]
  | cons c word ih =>
    obtain ⟨hspace, hdouble, hsingle⟩ := h c List.mem_cons_self
    rw [List.cons_append, Wants.tokenizeFrom]
    simp only [hdouble, hsingle, hspace, decide_false, Bool.or_false, Bool.false_eq_true, if_false]
    rw [ih (fun d hd => h d (List.mem_cons_of_mem c hd)), List.append_assoc, List.singleton_append]

theorem Wants.tokenizeFrom_space {buf : List Char} (h : buf ≠ []) (cs : List Char) :
    Wants.tokenizeFrom .plain buf (' ' :: cs) = do
      return .ofList buf :: (← Wants.tokenizeFrom .plain [] cs) := by
  rw [Wants.tokenizeFrom]
  simp only [List.isEmpty_iff, h, if_false]
  rfl

/-- Inside quotes the tokenizer reads a quoted text, whatever that text holds. -/
theorem Wants.tokenizeFrom_quoted {quote : Char} (cs : List Char) : ∀ {buf text rest : List Char},
    readQuoted quote cs = some (text, rest) →
      Wants.tokenizeFrom (.quoted quote) buf cs =
        Wants.tokenizeFrom (.quoted quote) (buf ++ text) (quote :: rest) := by
  induction cs using readQuoted.induct quote with
  | case1 =>
    intro buf text rest h
    cases h
  | case2 cs =>
    intro buf text rest h
    rw [readQuoted_close] at h
    cases h
    rw [List.append_nil]
  | case3 hquote =>
    intro buf text rest h
    rw [readQuoted.eq_def] at h
    simp [hquote] at h
  | case4 d cs hquote ih =>
    intro buf text rest h
    rw [readQuoted_backslash cs (Ne.symm hquote), Option.map_eq_some_iff] at h
    obtain ⟨⟨text', rest'⟩, hread, heq⟩ := h
    cases heq
    have hskip : Wants.tokenizeFrom (.quoted quote) buf ('\\' :: d :: cs) =
        Wants.tokenizeFrom (.quoted quote) (buf ++ [d]) cs := by
      rw [Wants.tokenizeFrom]
      simp only [hquote, if_false, if_true]
      rw [Wants.tokenizeFrom]
    rw [hskip, ih hread, List.append_assoc, List.singleton_append]
  | case5 c cs hquote hback ih =>
    intro buf text rest h
    rw [readQuoted_plain cs hquote hback, Option.map_eq_some_iff] at h
    obtain ⟨⟨text', rest'⟩, hread, heq⟩ := h
    cases heq
    rw [Wants.tokenizeFrom]
    simp only [hquote, hback, if_false]
    rw [ih hread, List.append_assoc, List.singleton_append]

/-- The tokens of a line with a quoted text at its end. -/
theorem Wants.tokenize_quoted {op target : List Char} (hop : ∀ c ∈ op, TokenChar c)
    (hopne : op ≠ []) (htarget : ∀ c ∈ target, TokenChar c) (htargetne : target ≠ [])
    (text : List Char) :
    Wants.tokenizeFrom .plain [] (op ++ ' ' :: target ++ ' ' :: '"' :: escape '"' text ++ ['"']) =
      .ok [.ofList op, .ofList target, .ofList text] := by
  have hquoted : Wants.tokenizeFrom .plain [] ('"' :: (escape '"' text ++ ['"'])) =
      .ok [.ofList text] := by
    rw [Wants.tokenizeFrom]
    simp only [decide_true, Bool.true_or, if_true]
    rw [Wants.tokenizeFrom_quoted _ (readQuoted_escape (by decide) text []), List.nil_append,
      Wants.tokenizeFrom]
    rfl
  simp only [List.append_assoc, List.cons_append]
  rw [Wants.tokenizeFrom_word hop, List.nil_append, Wants.tokenizeFrom_space hopne,
    Wants.tokenizeFrom_word htarget, List.nil_append, Wants.tokenizeFrom_space htargetne, hquoted]
  rfl

end Tokenize

/-- The wants line that sets a value, the value in quotes. -/
def setValueLine (target value : String) : String :=
  "set-value " ++ target ++ " \"" ++ .ofList (escape '"' value.toList) ++ "\""

/-- A target that stands outside quotes in a wants line. -/
structure TargetToken (target : String) : Prop where
  nonempty : target ≠ ""
  chars : ∀ c ∈ target.toList, TokenChar c
  flag : startsWith target "--" = false

theorem setValueLine_toList (target value : String) : (setValueLine target value).toList =
    "set-value".toList ++ ' ' :: target.toList ++ ' ' :: '"' :: escape '"' value.toList ++ ['"'] := by
  simp [setValueLine]

theorem trim_ends {s : String} {first last : Char} {mid : List Char}
    (hs : s.toList = first :: mid ++ [last]) (hfirst : isWhitespace first = false)
    (hlast : isWhitespace last = false) : trim s = s := by
  rw [trim, hs, List.cons_append, List.dropWhile_cons_of_neg (by simp [hfirst]), ← List.cons_append,
    List.reverse_concat, List.dropWhile_cons_of_neg (by simp [hlast]), List.reverse_cons,
    List.reverse_reverse, ← hs, String.ofList_toList]

section SetValue

variable {fromStr : String → Option Json} {target value : String}

theorem parseWantsStep_setValue (htarget : TargetToken target) (id : String) :
    parseWantsStep fromStr ["set-value", target, value] id =
      if value = "--screenshot" then .error "set-value needs target and value"
      else .ok { id, op := .setValue target value none } := by
  have hflag : target ≠ "--screenshot" := by
    rintro rfl
    exact absurd htarget.flag (by decide)
  have hname : replace "set-value" "-" "_" = "set_value" := by decide
  have hop : "set-value" ≠ "--screenshot" := by decide
  rw [parseWantsStep]
  by_cases hvalue : value = "--screenshot"
  · -- the payload is taken for the flag
    have hfilter : ["set-value", target, value].filter (fun tok => tok ≠ "--screenshot") =
        ["set-value", target] := by simp [hop, hflag, hvalue]
    simp only [hfilter, hname, if_pos hvalue]
    rfl
  · have hfilter : ["set-value", target, value].filter (fun tok => tok ≠ "--screenshot") =
        ["set-value", target, value] := by simp [hop, hflag, hvalue]
    have hcontains : ["set-value", target, value].contains "--screenshot" = false := by
      simp [Ne.symm hflag, Ne.symm hvalue]
    simp only [hfilter, hcontains, hname, if_neg hvalue]
    rfl

theorem parseWantsLine_setValue (htarget : TargetToken target) (idx : Nat) :
    parseWantsLine fromStr [] (setValueLine target value, idx) =
      if value = "--screenshot" then
        .error (s!"line {idx + 1}: " ++ "set-value needs target and value")
      else .ok [{ id := "s1", op := .setValue target value none }] := by
  have hlist := setValueLine_toList target value
  have hends : (setValueLine target value).toList =
      's' :: ("et-value".toList ++ ' ' :: target.toList ++ ' ' :: '"' :: escape '"' value.toList) ++
        ['"'] := by
    rw [hlist]
    simp
  have htrim : trim (setValueLine target value) = setValueLine target value :=
    trim_ends hends (by decide) (by decide)
  have hempty : (setValueLine target value).isEmpty = false := by simp [setValueLine]
  have hcomment : startsWith (setValueLine target value) "#" = false :=
    startsWith_head hends (by decide : 's' ≠ '#')
  have htokens : Wants.tokenize (setValueLine target value) = .ok ["set-value", target, value] := by
    have htargetne : target.toList ≠ [] := by simpa using htarget.nonempty
    have hop : ∀ c ∈ "set-value".toList, TokenChar c :=
      List.forall_iff_forall_mem.mp (by decide)
    rw [Wants.tokenize, hlist, Wants.tokenize_quoted hop (by decide) htarget.chars htargetne]
    simp
  rw [parseWantsLine]
  have hid : s!"s{([] : List RecipeStep).length + 1}" = "s1" := by decide
  simp only [htrim, hempty, hcomment, Bool.or_self, Bool.false_eq_true, if_false, htokens, bind,
    Except.bind, hid, parseWantsStep_setValue htarget]
  by_cases hvalue : value = "--screenshot"
  · rw [if_pos hvalue, if_pos hvalue]
    rfl
  · rw [if_neg hvalue, if_neg hvalue]
    rfl

theorem lines_setValue (htarget : TargetToken target) (hvalue : '\n' ∉ value.toList) :
    lines (setValueLine target value) = [setValueLine target value] := by
  have hline : '\n' ∉ (setValueLine target value).toList := by
    rw [setValueLine_toList]
    have hplain : '\n' ∉ target.toList := fun h =>
      absurd (htarget.chars _ h).1 (by decide)
    have hescape : '\n' ∉ escape '"' value.toList := fun h =>
      (mem_escape h).elim (by decide) hvalue
    simp [hplain, hescape]
  rw [lines, rawLines_open (by simp [setValueLine]) hline]
  simp

/-- The line parses to the one step it is written for. -/
def ReadsBack (fromStr : String → Option Json) (name target value : String) : Prop :=
  ∃ recipe step, parseWants fromStr (setValueLine target value) name = .ok recipe ∧
    recipe.steps = [step] ∧ step.op = .setValue target value none

/-- A quoted payload is read back as it is, except for the one text that is a flag of every step. -/
theorem readsBack_iff (name : String) (htarget : TargetToken target)
    (hvalue : '\n' ∉ value.toList) :
    ReadsBack fromStr name target value ↔ value ≠ "--screenshot" := by
  have hparse : parseWants fromStr (setValueLine target value) name = do
      let steps ← parseWantsLine fromStr [] (setValueLine target value, 0)
      if steps.isEmpty then throw "recipe has no steps"
      let params := (steps.flatMap fun step => collectPlaceholdersInOp step.op).dedup
      return { name, params := params.insertionSort (· ≤ ·), steps } := by
    rw [parseWants, lines_setValue htarget hvalue, List.zipIdx_singleton, List.foldlM_cons]
    cases parseWantsLine fromStr [] (setValueLine target value, 0) with
    | error e => rfl
    | ok steps => rfl
  constructor
  · rintro ⟨recipe, step, hok, -⟩ rfl
    rw [hparse, parseWantsLine_setValue htarget, if_pos rfl] at hok
    cases hok
  · intro hne
    rw [ReadsBack, hparse, parseWantsLine_setValue htarget, if_neg hne]
    exact ⟨_, _, rfl, rfl, rfl⟩

theorem readsBack_iff_quoted :
    ReadsBack (fun _ => none) "demo" "todo-input" "click --delivery \"x\" \\ #" ∧
      ¬ ReadsBack (fun _ => none) "demo" "todo-input" "--screenshot" := by
  have htarget : TargetToken "todo-input" :=
    ⟨by decide, List.forall_iff_forall_mem.mp (by decide), by decide⟩
  exact ⟨(readsBack_iff "demo" htarget (by decide)).mpr (by decide),
    fun h => (readsBack_iff "demo" htarget (by decide)).mp h rfl⟩

end SetValue

/-- The payload `--screenshot` is taken for the flag, and the line is refused. -/
theorem not_readsBack_screenshot :
    ¬ ∀ (fromStr : String → Option Json) (name target value : String),
      TargetToken target → '\n' ∉ value.toList → ReadsBack fromStr name target value := by
  intro h
  obtain ⟨recipe, step, hok, -⟩ := h (fun _ => none) "demo" "todo-input" "--screenshot"
    ⟨by decide, List.forall_iff_forall_mem.mp (by decide), by decide⟩ (by decide)
  have herror : (parseWants (fun _ => none) (setValueLine "todo-input" "--screenshot")
    "demo").toOption.isNone = true := by decide +kernel
  rw [hok] at herror
  cases herror

end GpuiAgent
