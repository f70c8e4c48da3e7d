import GpuiAgent.Client.AgentClient
import GpuiAgent.Recipe.Plan

namespace GpuiAgent

/-- Which steps are followed by a picture. -/
structure ScreenshotCapture where
  dir : String
  flaggedOnly : Bool

structure ScreenshotReceipt where
  path : String
  ok : Bool
  error : Option String
  deriving DecidableEq

/-- The receipt of a step, less the time it took. -/
structure StepReceipt where
  id : String
  ok : Bool
  error : Option String
  result : Option Json
  screenshot : Option ScreenshotReceipt
  deriving DecidableEq

structure Receipt where
  ok : Bool
  recipe : String
  fingerprint : String
  sessionReused : Bool
  steps : List StepReceipt
  screenshots : List ScreenshotReceipt
  deriving DecidableEq

inductive RunError where
  | needsYes
  | step (id error : String) (receipt : Receipt)
  deriving DecidableEq

/-- One call of the client: the steps whose ops it carries, none for a picture, the replies, and the
lines it wrote. -/
structure ClientCall where
  steps : List String
  reply : Except String (List Response)
  lines : List LineWrite

/-- A run that has ended; it has no result where the code panics. -/
structure PlanRun where
  result : Option (Except RunError Receipt)
  client : AgentClient
  calls : List ClientCall

/-- A run under way. -/
structure Execution where
  client : AgentClient
  calls : List ClientCall
  receipt : Receipt
  shotIndex : Nat

def sanitizeStepId (id : String) : String :=
  let out := id.map fun ch => if ch.isAlphanum || ch = '-' || ch = '_' then ch else '_'
  if out.isEmpty then "step" else out

/-- `{index:03}-{id}.png`. -/
def stepFile (index : Nat) (stepId : String) : String :=
  let digits := toString index
  "".pushn '0' (3 - digits.length) ++ s!"{digits}-{sanitizeStepId stepId}.png"

namespace ScreenshotCapture

def stepPath (capture : ScreenshotCapture) (index : Nat) (stepId : String) : String :=
  if capture.dir.isEmpty || Framework.endsWith capture.dir "/" then
    capture.dir ++ stepFile index stepId
  else s!"{capture.dir}/{stepFile index stepId}"

def wants (capture : ScreenshotCapture) (step : PlannedStep) : Bool :=
  !capture.flaggedOnly || step.screenshot

end ScreenshotCapture

def stepIsReadOnly (step : PlannedStep) : Bool :=
  !step.effects.isEmpty && step.effects.all fun effect => effect = .read

def waveCanPipeline (steps : List PlannedStep) (screenshots : Option ScreenshotCapture) : Bool :=
  screenshots.isNone && decide (1 < steps.length) && steps.all stepIsReadOnly

/-- The steps of a wave, if they are all planned. -/
def Plan.waveSteps (plan : Plan) (wave : List String) : Option (List PlannedStep) :=
  wave.mapM fun id => plan.steps.find? fun step => step.id = id

namespace Execution

/-- The client after a call, and the call on record. -/
def called (s : Execution) (steps : List String) {α : Type} (call : Call (Except String α))
    (replies : α → List Response) : Execution :=
  { s with
    client := call.client
    calls := s.calls ++ [⟨steps, call.result.map replies, call.log⟩] }

def noteSession (s : Execution) : Execution :=
  { s with receipt := { s.receipt with sessionReused := s.client.session } }

def push (s : Execution) (entry : StepReceipt) : Execution :=
  { s with receipt := { s.receipt with
    steps := s.receipt.steps ++ [entry]
    screenshots := s.receipt.screenshots ++ entry.screenshot.toList } }

/-- End the run with the failure of a step. -/
def fail (s : Execution) (id error : String) : PlanRun :=
  ⟨some (.error (.step id error { s.receipt with ok := false })), s.client, s.calls⟩

def panicked (s : Execution) : PlanRun := ⟨none, s.client, s.calls⟩

section Run

-- what the connection does in each call of the client, by its number
variable (host : Nat → List (List Attempt))

def rpcOp (s : Execution) (steps : List String) (op : Op) :
    Except String Response × Execution :=
  let call := s.client.rpcOp op ((host s.calls.length).headD [])
  (call.result, s.called steps call fun resp => [resp])

def captureScreenshot (capture : Option ScreenshotCapture) (s : Execution) (step : PlannedStep) :
    Option ScreenshotReceipt × Execution :=
  match capture with
  | none => (none, s)
  | some capture =>
    if !capture.wants step then (none, s)
    else
      let path := capture.stepPath s.shotIndex step.id
      let wireName := stepFile s.shotIndex step.id
      let (result, s) := s.rpcOp host [] (.screenshot (some wireName) .viewport none none)
      let shot := match result with
        | .ok resp =>
          if resp.ok then ⟨path, true, none⟩
          else ⟨path, false, resp.error.or (some "screenshot failed")⟩
        | .error error => ⟨path, false, some error⟩
      (some shot, s)

/-- One step of a wave that is run in sequence. -/
def runStep (screenshots : Option ScreenshotCapture) (s : Execution) (step : PlannedStep) :
    Except PlanRun Execution :=
  let s := { s with shotIndex := s.shotIndex + 1 }
  let (result, s) := s.rpcOp host [step.id] step.op
  let (screenshot, s) := captureScreenshot host screenshots s.noteSession step
  match result with
  | .ok resp =>
    let s := s.push ⟨step.id, resp.ok, resp.error, resp.result, screenshot⟩
    if resp.ok then .ok s else .error (s.fail step.id (resp.error.getD "request failed"))
  | .error error =>
    .error ((s.push ⟨step.id, false, some error, none, screenshot⟩).fail step.id error)

/-- A wave in one pipeline. -/
def runPipeline (s : Execution) (steps : List PlannedStep) : Except PlanRun Execution :=
  let call := s.client.rpcPipeline (steps.map PlannedStep.op) (host s.calls.length)
  let s := (s.called (steps.map PlannedStep.id) call id).noteSession
  match call.result with
  | .ok resps =>
    let answers := steps.zip resps
    let s := answers.foldl (fun s answer =>
      s.push ⟨answer.1.id, answer.2.ok, answer.2.error, answer.2.result, none⟩) s
    match answers.find? fun answer => !answer.2.ok with
    | some (step, resp) => .error (s.fail step.id (resp.error.getD "request failed"))
    | none => .ok s
  | .error error => match steps with
    | [] => .error s.panicked
    | first :: _ => .error ((s.push ⟨first.id, false, some error, none, none⟩).fail first.id error)

def runWave (plan : Plan) (screenshots : Option ScreenshotCapture) (s : Execution)
    (wave : List String) : Except PlanRun Execution :=
  match plan.waveSteps wave with
  | none => .error s.panicked
  | some steps =>
    if waveCanPipeline steps screenshots then s.runPipeline host steps
    else steps.foldlM (runStep host screenshots) s

end Run

def start (client : AgentClient) (plan : Plan) : Execution where
  client
  calls := []
  receipt := {
    ok := true
    recipe := plan.name
    fingerprint := plan.fingerprint
    sessionReused := false
    steps := []
    screenshots := [] }
  shotIndex := 0

end Execution

def runPlanWithScreenshots (host : Nat → List (List Attempt)) (client : AgentClient) (plan : Plan)
    (yes : Bool) (screenshots : Option ScreenshotCapture) : PlanRun :=
  if plan.requiresYes && !yes then ⟨some (.error .needsYes), client, []⟩
  else match plan.waves.foldlM (Execution.runWave host plan screenshots) (.start client plan) with
    | .error run => run
    | .ok s => ⟨some (.ok s.noteSession.receipt), s.client, s.calls⟩

def runPlan (host : Nat → List (List Attempt)) (client : AgentClient) (plan : Plan) (yes : Bool) :
    PlanRun :=
  runPlanWithScreenshots host client plan yes none

end GpuiAgent
