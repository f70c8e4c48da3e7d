import GpuiAgent.Cli.McpLoop
import GpuiAgent.Client.Timeouts
import GpuiAgent.Recipe.Wants

namespace GpuiAgent

open Framework

/-- What code does with a client that it is handed: one call after another, each chosen by the
replies so far. -/
inductive ClientProgram (α : Type) where
  | done (a : α)
  | rpc (op : Op) (next : Except String Response → ClientProgram α)
  | pipeline (ops : List Op) (next : Except String (List Response) → ClientProgram α)

namespace ClientProgram

variable {α : Type}

/-- Run a program; `host` is what the connection does from its `n`-th call on. The client's timeout
in each call is noted. -/
def run (host : Nat → List (List Attempt)) :
    ClientProgram α → (n : Nat) → TimedClient → α × TimedClient × List Nat
  | .done a, _, c => (a, c, [])
  | .rpc op next, n, c =>
    let call := c.rpcOp op ((host n).headD [])
    let (a, c', timeouts) := (next call.result).run host (n + 1) call.client
    (a, c', c.timeout :: timeouts)
  | .pipeline ops next, n, c =>
    let call := c.rpcPipeline ops (host n)
    let (a, c', timeouts) := (next call.result).run host (n + 1) call.client
    (a, c', c.timeout :: timeouts)

/-- A program leaves the client the timeout that it has all along. -/
theorem run_timeout (host : Nat → List (List Attempt)) (program : ClientProgram α) :
    ∀ (n : Nat) (c : TimedClient), (program.run host n c).2.1.timeout = c.timeout ∧
      ∀ t ∈ (program.run host n c).2.2, t = c.timeout := by
  induction program with
  | done a => exact fun _ _ => ⟨rfl, fun _ h => by cases h⟩
  | rpc op next ih =>
    intro n c
    have hcall := (TimedClient.alone_rpcOp c op ((host n).headD [])).timeout
    obtain ⟨hclient, htimes⟩ := ih (c.rpcOp op ((host n).headD [])).result (n + 1)
      (c.rpcOp op ((host n).headD [])).client
    rw [hcall] at hclient htimes
    exact ⟨hclient, List.forall_mem_cons.mpr ⟨rfl, htimes⟩⟩
  | pipeline ops next ih =>
    intro n c
    have hcall := TimedClient.timeout_rpcPipeline c ops (host n)
    obtain ⟨hclient, htimes⟩ := ih (c.rpcPipeline ops (host n)).result (n + 1)
      (c.rpcPipeline ops (host n)).client
    rw [hcall] at hclient htimes
    exact ⟨hclient, List.forall_mem_cons.mpr ⟨rfl, htimes⟩⟩

/-- `AgentClient::expect_ok`. -/
def expectOk (op : Op) (next : Except String Response → ClientProgram α) : ClientProgram α :=
  .rpc op fun result => next (result.bind fun resp =>
    if resp.ok then .ok resp else .error (resp.error.getD "request failed"))

end ClientProgram

namespace Mcp

def optString (args : Json) (key : String) : Option String := (args.get key).bind Json.asStr

def string (args : Json) (key : String) : Except String String :=
  okOr s!"missing string `{key}`" (optString args key)

def parseDelivery (args : Json) : Except String DeliveryMode :=
  match args.get "delivery" with
  | none => .ok .semantic
  | some (.string s) => DeliveryMode.fromStr s
  | some _ => .error "delivery must be a string (`semantic` or `virtual`)"

def parseScreenshotMode (args : Json) : Except String ScreenshotMode :=
  match args.get "mode" with
  | none => .ok .viewport
  | some (.string s) => ScreenshotMode.fromStr s
  | some _ => .error "mode must be a string (`viewport` or `scrolled`)"

def parseAssertSpec (args : Json) : Except String AssertSpec := do
  let target ← okOr "missing string `target`" ((optString args "target").or (optString args "id"))
  return {
    target
    name := optString args "name"
    value := optString args "value"
    role := optString args "role"
    checked := (args.get "checked").bind Json.asBool
    exists' := (args.get "exists").bind Json.asBool
    visible := (args.get "visible").bind Json.asBool
    inViewport := (args.get "in_viewport").bind Json.asBool }

def parseSnapshot (args : Json) : Except String Op := do
  let since := (args.get "since").bind Json.asU64
  let format ← match optString args "format" with
    | none => .ok none
    | some "json" => .ok (some .json)
    | some "compact" => .ok (some .compact)
    | some other => .error s!"unknown snapshot format {other}"
  let fingerprints := (args.get "fingerprints").bind Json.asBool
  return .snapshot since format (if fingerprints = some true then fingerprints else none)

def parseScreenshot (args : Json) : Except String Op := do
  let path ← string args "path"
  let mode ← parseScreenshotMode args
  let target := optString args "target"
  let maxHeightPx := ((args.get "max_height_px").bind Json.asU64).map (· % 2 ^ 32)
  if mode = .scrolled ∧ (target.map trim).getD "" = "" then
    throw "screenshot mode=scrolled requires target"
  return .screenshot (some path) mode target maxHeightPx

def parseKeybinding (args : Json) : Except String Op := do
  let binding ← okOr "missing string `id`" ((optString args "id").or (optString args "binding"))
  let scope ← KeybindingScope.fromStr (← string args "scope")
  let chord := optString args "chord"
  let confirm := ((args.get "confirm").bind Json.asBool).getD false
  let activate := ((args.get "activate").bind Json.asBool).getD false
  return .keybinding binding chord scope confirm activate

/-- The op that a tool sends, where it sends one op and returns its response. -/
def toolOp (args : Json) : String → Option (Except String Op)
  | "wait" => some (.ok (.wait none))
  | "wait_until" => some do
    let timeoutMs ← okOr "missing integer `timeout_ms`" ((args.get "timeout_ms").bind Json.asU64)
    return .waitUntil timeoutMs (← parseAssertSpec args)
  | "hello" => some (.ok .hello)
  | "snapshot" => some (parseSnapshot args)
  | "screenshot" => some (parseScreenshot args)
  | "click" => some do return .click (← string args "target") (← parseDelivery args) none
  | "type" => some do
    return .type (← string args "target") (← string args "text") (← parseDelivery args) none
  | "set_value" => some do return .setValue (← string args "target") (← string args "value") none
  | "key" => some do
    return .key (← string args "target") (← string args "key") (← parseDelivery args) none
  | "keybinding" => some (parseKeybinding args)
  | "keybindings" | "keybinding.list" => some (.ok .keybindings)
  | "assert" => some do return .assert (← parseAssertSpec args)
  | "invoke" => some do
    return .invoke (← string args "name") ((args.get "args").getD (.object []))
  | "shutdown" => some (.ok .shutdown)
  | _ => none

/-- The tools of other modules, and how responses are printed. -/
structure Toolbox where
  responseJson : Response → Json
  pollJson : Json → Except String Json
  pretty : Json → String
  recipeValidate : Json → Except String Json
  recipePlan : Json → Except String Json
  recipeResolve : Json → Except String Json
  recipeRun : Json → ClientProgram (Except String Json)
  locate : Json → ClientProgram (Except String Json)
  act : Json → ClientProgram (Except String Json)

/-- The timeout that a tool sets, and what it does with the client after that. -/
structure ToolCall where
  timeout : Option Nat
  program : ClientProgram (Except String Json)

section Tools

variable (toolbox : Toolbox)

/-- `client.events`. -/
def pollEvents (args : Json) : ClientProgram (Except String Json) :=
  let since := (args.get "since").bind Json.asU64
  let limit := ((args.get "limit").bind Json.asU64).map (min · (2 ^ 32 - 1))
  .expectOk (.events since limit) fun result => .done <| result.bind fun resp =>
    (toolbox.pollJson (resp.result.getD .null)).mapError fun err => s!"bad events response: {err}"

def sendTool (args : Json) (name : String) : ClientProgram (Except String Json) :=
  match toolOp args name with
  | none => .done (.error s!"unknown tool {name}")
  | some (.error err) => .done (.error err)
  | some (.ok op) => .expectOk op fun result => .done (result.map toolbox.responseJson)

def callTool (params : Json) : ToolCall :=
  match (params.get "name").bind Json.asStr with
  | none => ⟨none, .done (.error "missing tool name")⟩
  | some name =>
    let args := (params.get "arguments").getD (.object [])
    match name with
    | "wait" =>
      ⟨((args.get "timeout_ms").bind Json.asU64).map fromMillis, sendTool toolbox args name⟩
    | "events" => ⟨none, pollEvents toolbox args⟩
    | "recipe_validate" => ⟨none, .done (toolbox.recipeValidate args)⟩
    | "recipe_plan" => ⟨none, .done (toolbox.recipePlan args)⟩
    | "recipe_run" => ⟨none, toolbox.recipeRun args⟩
    | "recipe_resolve" => ⟨none, .done (toolbox.recipeResolve args)⟩
    | "locate" => ⟨none, toolbox.locate args⟩
    | "act" => ⟨none, toolbox.act args⟩
    | name => ⟨none, sendTool toolbox args name⟩

/-- The client's timeout while it serves a call. -/
def timeoutInForce (c : TimedClient) (params : Json) : Nat :=
  (callTool toolbox params).timeout.getD c.timeout

def content (text : String) : Json :=
  .array [.object [("text", .string text), ("type", .string "text")]]

/-- Serve a call; the last part is the timeout of the client in each op or pipeline of the call. -/
def serveCall (host : Nat → List (List Attempt)) (c : TimedClient) (params : Json) :
    Except String Json × TimedClient × List Nat :=
  (callTool toolbox params).program.run host 0 (c.setTimeout (timeoutInForce toolbox c params))

def toolsCallResult (host : Nat → List (List Attempt)) (c : TimedClient) (params : Json) :
    Json × TimedClient :=
  let (result, c, _) := serveCall toolbox host c params
  match result with
  | .ok value => (.object [("content", content (toolbox.pretty value))], c)
  | .error err => (.object [("content", content err), ("isError", .bool true)], c)

/-- The client after messages, each with what the connection does while it is handled. -/
def afterMessages (tools : List Json) (c : TimedClient)
    (history : List (Json × (Nat → List (List Attempt)))) : TimedClient :=
  history.foldl (fun c entry =>
    (handleMessage tools (toolsCallResult toolbox entry.2) c entry.1).2) c

/-- The timeout that a call asks for, as a `wait` does. -/
def waitTimeout (params : Json) : Option Nat :=
  if (params.get "name").bind Json.asStr = some "wait" then
    ((((params.get "arguments").getD (.object [])).get "timeout_ms").bind Json.asU64).map fromMillis
  else none

/-- The last timeout that a call among the messages has asked for. -/
def lastWaitTimeout (history : List (Json × (Nat → List (List Attempt)))) : Option Nat :=
  (history.filterMap fun entry =>
    if method entry.1 = "tools/call" then waitTimeout ((entry.1.get "params").getD .null)
    else none).getLast?

theorem callTool_timeout (params : Json) :
    (callTool toolbox params).timeout = waitTimeout params := by
  unfold callTool waitTimeout
  cases (params.get "name").bind Json.asStr with
  | none => rfl
  | some name =>
    dsimp only
    by_cases hwait : name = "wait"
    · subst hwait
      rfl
    · rw [if_neg (by simpa using hwait)]
      split
      · exact absurd rfl hwait
      all_goals rfl

/-- A call is served with one timeout, and leaves it behind. -/
theorem serveCall_timeout (host : Nat → List (List Attempt)) (c : TimedClient) (params : Json) :
    (serveCall toolbox host c params).2.1.timeout = timeoutInForce toolbox c params ∧
      ∀ t ∈ (serveCall toolbox host c params).2.2, t = timeoutInForce toolbox c params :=
  (callTool toolbox params).program.run_timeout host 0 _

theorem toolsCallResult_timeout (host : Nat → List (List Attempt)) (c : TimedClient)
    (params : Json) :
    (toolsCallResult toolbox host c params).2.timeout = (waitTimeout params).getD c.timeout := by
  have hserve := (serveCall_timeout toolbox host c params).1
  rw [timeoutInForce, callTool_timeout] at hserve
  unfold toolsCallResult
  generalize serveCall toolbox host c params = served at hserve ⊢
  obtain ⟨result, c', timeouts⟩ := served
  cases result with
  | error err => exact hserve
  | ok value => exact hserve

/-- Only a call of a tool touches the client. -/
theorem handleMessage_timeout (tools : List Json) (host : Nat → List (List Attempt))
    (c : TimedClient) (msg : Json) :
    (handleMessage tools (toolsCallResult toolbox host) c msg).2.timeout =
      (if method msg = "tools/call" then waitTimeout ((msg.get "params").getD .null)
        else none).getD c.timeout := by
  unfold handleMessage
  dsimp only
  split
  · next h => simp [h]
  · next h => simp [h]
  · next h => simp [h]
  · next h =>
    rw [if_pos h]
    exact toolsCallResult_timeout toolbox host c _
  · next h => simp [h]
  · next hcall _ =>
    rw [if_neg fun h => hcall h]
    rfl

theorem afterMessages_timeout (tools : List Json) (c : TimedClient)
    (history : List (Json × (Nat → List (List Attempt)))) :
    (afterMessages toolbox tools c history).timeout = (lastWaitTimeout history).getD c.timeout := by
  induction history using List.reverseRecOn with
  | nil => rfl
  | append_singleton history entry ih =>
    have hlast : afterMessages toolbox tools c (history ++ [entry]) =
        (handleMessage tools (toolsCallResult toolbox entry.2)
          (afterMessages toolbox tools c history) entry.1).2 := by
      rw [afterMessages, List.foldl_append]
      rfl
    rw [hlast, handleMessage_timeout, ih]
    unfold lastWaitTimeout
    rw [List.filterMap_append, List.getLast?_append]
    cases hwait : (if method entry.1 = "tools/call" then
        waitTimeout ((entry.1.get "params").getD .null) else none) with
    | none => simp [hwait]
    | some t => simp [hwait]

end Tools

def waitParams : Json :=
  .object [("arguments", .object [("timeout_ms", .nat 100)]), ("name", .string "wait")]

def waitMessage : Json :=
  .object [("id", .nat 1), ("jsonrpc", .string "2.0"), ("method", .string "tools/call"),
    ("params", waitParams)]

def helloParams : Json := .object [("name", .string "hello")]

/-- Tools of other modules that refuse every call. -/
def refusing : Toolbox where
  responseJson _ := .null
  pollJson _ := .error "no events"
  pretty _ := "null"
  recipeValidate _ := .error "missing `recipe`"
  recipePlan _ := .error "missing `recipe`"
  recipeResolve _ := .error "missing string `intent`"
  recipeRun _ := .done (.error "missing `recipe`")
  locate _ := .done (.error "missing string `query`")
  act _ := .done (.error "missing string `instruction`")

end Mcp

end GpuiAgent
