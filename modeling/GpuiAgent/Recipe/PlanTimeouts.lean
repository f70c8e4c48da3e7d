import GpuiAgent.Client.TimeoutCover
import GpuiAgent.Framework.Result
import GpuiAgent.Recipe.Run

namespace GpuiAgent

open Framework

/-- A run under way whose client has timeouts. -/
structure TimedExecution extends Execution where
  timed : TimedClient
  waits : List ReplyWait

/-- A run that has ended, with all waits for replies in it. -/
structure TimedRun extends PlanRun where
  waits : List ReplyWait

namespace TimedExecution

def called (s : TimedExecution) (steps : List String) {α : Type} (call : TimedCall (Except String α))
    (replies : α → List Response) : TimedExecution :=
  ⟨s.toExecution.called steps call.untimed replies, call.client, s.waits ++ call.waits⟩

def noteSession (s : TimedExecution) : TimedExecution :=
  { s with toExecution := s.toExecution.noteSession }

def push (s : TimedExecution) (entry : StepReceipt) : TimedExecution :=
  { s with toExecution := s.toExecution.push entry }

def fail (s : TimedExecution) (id error : String) : TimedRun :=
  ⟨s.toExecution.fail id error, s.waits⟩

def panicked (s : TimedExecution) : TimedRun := ⟨s.toExecution.panicked, s.waits⟩

section Run

variable (host : Nat → List (List Attempt))

def rpcOp (s : TimedExecution) (steps : List String) (op : Op) :
    Except String Response × TimedExecution :=
  let call := s.timed.rpcOp op ((host s.calls.length).headD [])
  (call.result, s.called steps call fun resp => [resp])

def captureScreenshot (capture : Option ScreenshotCapture) (s : TimedExecution)
    (step : PlannedStep) : Option ScreenshotReceipt × TimedExecution :=
  match capture with
  | none => (none, s)
  | some capture =>
    if !capture.wants step then (none, s)
    else
      let path := capture.stepPath s.shotIndex step.id
      let wireName := stepFile s.shotIndex step.id
      let (result, s) := s.rpcOp host [] (.screenshot (some wireName) .viewport none none)
      let shot := match result with
        | .ok resp =>
          if resp.ok then ⟨path, true, none⟩
          else ⟨path, false, resp.error.or (some "screenshot failed")⟩
        | .error error => ⟨path, false, some error⟩
      (some shot, s)

def runStep (screenshots : Option ScreenshotCapture) (s : TimedExecution) (step : PlannedStep) :
    Except TimedRun TimedExecution :=
  let s := { s with shotIndex := s.shotIndex + 1 }
  let (result, s) := s.rpcOp host [step.id] step.op
  let (screenshot, s) := captureScreenshot host screenshots s.noteSession step
  match result with
  | .ok resp =>
    let s := s.push ⟨step.id, resp.ok, resp.error, resp.result, screenshot⟩
    if resp.ok then .ok s else .error (s.fail step.id (resp.error.getD "request failed"))
  | .error error =>
    .error ((s.push ⟨step.id, false, some error, none, screenshot⟩).fail step.id error)

def runPipeline (s : TimedExecution) (steps : List PlannedStep) :
    Except TimedRun TimedExecution :=
  let call := s.timed.rpcPipeline (steps.map PlannedStep.op) (host s.calls.length)
  let s := (s.called (steps.map PlannedStep.id) call id).noteSession
  match call.result with
  | .ok resps =>
    let answers := steps.zip resps
    let s := answers.foldl (fun s answer =>
      s.push ⟨answer.1.id, answer.2.ok, answer.2.error, answer.2.result, none⟩) s
    match answers.find? fun answer => !answer.2.ok with
    | some (step, resp) => .error (s.fail step.id (resp.error.getD "request failed"))
    | none => .ok s
  | .error error => match steps with
    | [] => .error s.panicked
    | first :: _ => .error ((s.push ⟨first.id, false, some error, none, none⟩).fail first.id error)

def runWave (plan : Plan) (screenshots : Option ScreenshotCapture) (s : TimedExecution)
    (wave : List String) : Except TimedRun TimedExecution :=
  match plan.waveSteps wave with
  | none => .error s.panicked
  | some steps =>
    if waveCanPipeline steps screenshots then s.runPipeline host steps
    else steps.foldlM (runStep host screenshots) s

end Run

def start (client : TimedClient) (plan : Plan) : TimedExecution where
  toExecution := .start client.untimed plan
  timed := client
  waits := []

end TimedExecution

namespace TimedClient

/-- `run_plan_with_screenshots` on a client with timeouts. -/
def runPlanWithScreenshots (client : TimedClient) (host : Nat → List (List Attempt)) (plan : Plan)
    (yes : Bool) (screenshots : Option ScreenshotCapture) : TimedRun :=
  if plan.requiresYes && !yes then ⟨⟨some (.error .needsYes), client.untimed, []⟩, []⟩
  else match plan.waves.foldlM (TimedExecution.runWave host plan screenshots)
      (.start client plan) with
    | .error run => run
    | .ok s => ⟨⟨some (.ok s.noteSession.receipt), s.client, s.calls⟩, s.waits⟩

end TimedClient

/-- The client of the run is the timed one without its timeouts. -/
def TimedExecution.Agrees (s : TimedExecution) : Prop := s.timed.untimed = s.client

/-- A step of a run with timeouts and one without come to the same. -/
abbrev SameOutcome : Except TimedRun TimedExecution → Except PlanRun Execution → Prop :=
  Corresponds (fun s s' => s.toExecution = s' ∧ s.Agrees) fun run run' => run.toPlanRun = run'

namespace TimedExecution

variable {host : Nat → List (List Attempt)} {s : TimedExecution}

theorem called_eq {α : Type} {call : TimedCall (Except String α)} {call' : Call (Except String α)}
    (h : call.untimed = call') (steps : List String) (replies : α → List Response) :
    (s.called steps call replies).toExecution = s.toExecution.called steps call' replies ∧
      (s.called steps call replies).Agrees := by
  subst h
  exact ⟨rfl, rfl⟩

theorem rpcOp_eq (h : s.Agrees) (steps : List String) (op : Op) :
    (s.rpcOp host steps op).1 = (s.toExecution.rpcOp host steps op).1 ∧
      (s.rpcOp host steps op).2.toExecution = (s.toExecution.rpcOp host steps op).2 ∧
      (s.rpcOp host steps op).2.Agrees := by
  have hcall := TimedClient.untimed_rpcOp s.timed op ((host s.calls.length).headD [])
  rw [h] at hcall
  exact ⟨congrArg Call.result hcall, called_eq hcall steps _⟩

theorem captureScreenshot_eq (h : s.Agrees) (capture : Option ScreenshotCapture)
    (step : PlannedStep) :
    (captureScreenshot host capture s step).1 =
        (Execution.captureScreenshot host capture s.toExecution step).1 ∧
      (captureScreenshot host capture s step).2.toExecution =
        (Execution.captureScreenshot host capture s.toExecution step).2 ∧
      (captureScreenshot host capture s step).2.Agrees := by
  cases capture with
  | none => exact ⟨rfl, rfl, h⟩
  | some capture =>
    unfold captureScreenshot Execution.captureScreenshot
    dsimp only
    split_ifs
    · exact ⟨rfl, rfl, h⟩
    · obtain ⟨hres, hrun, hagree⟩ := @rpcOp_eq host s h []
        (.screenshot (some (stepFile s.shotIndex step.id)) .viewport none none)
      exact ⟨by dsimp only; rewrite [hres]; rfl, hrun, hagree⟩

theorem runStep_eq (h : s.Agrees) (screenshots : Option ScreenshotCapture) (step : PlannedStep) :
    SameOutcome (runStep host screenshots s step)
      (Execution.runStep host screenshots s.toExecution step) := by
  obtain ⟨hres, hrun, hagree⟩ := @rpcOp_eq host
    { s with shotIndex := s.shotIndex + 1 } h [step.id] step.op
  unfold runStep Execution.runStep
  dsimp only
  generalize rpcOp host { s with shotIndex := s.shotIndex + 1 } [step.id] step.op = sent at *
  generalize Execution.rpcOp host { s.toExecution with shotIndex := s.shotIndex + 1 } [step.id]
    step.op = sent' at *
  obtain ⟨result, t⟩ := sent
  obtain ⟨result', t'⟩ := sent'
  dsimp only at hres hrun hagree ⊢
  subst hres hrun
  obtain ⟨hshot, hrun, hagree⟩ := @captureScreenshot_eq host t.noteSession hagree screenshots step
  change (captureScreenshot host screenshots t.noteSession step).1 =
    (Execution.captureScreenshot host screenshots t.toExecution.noteSession step).1 at hshot
  change (captureScreenshot host screenshots t.noteSession step).2.toExecution =
    (Execution.captureScreenshot host screenshots t.toExecution.noteSession step).2 at hrun
  generalize captureScreenshot host screenshots t.noteSession step = shot at *
  generalize
    Execution.captureScreenshot host screenshots t.toExecution.noteSession step = shot' at *
  obtain ⟨shot, u⟩ := shot
  obtain ⟨shot', u'⟩ := shot'
  dsimp only at hshot hrun hagree ⊢
  subst hshot hrun
  cases result with
  | error error => rfl
  | ok resp =>
    dsimp only
    split_ifs
    · exact ⟨rfl, hagree⟩
    · rfl

theorem foldl_push_eq (entries : List StepReceipt) : ∀ {s : TimedExecution}, s.Agrees →
    (entries.foldl push s).toExecution = entries.foldl Execution.push s.toExecution ∧
      (entries.foldl push s).Agrees := by
  induction entries with
  | nil => exact fun h => ⟨rfl, h⟩
  | cons entry entries ih =>
    intro s h
    exact @ih (s.push entry) h

theorem runPipeline_eq (h : s.Agrees) (steps : List PlannedStep) :
    SameOutcome (s.runPipeline host steps) (s.toExecution.runPipeline host steps) := by
  have hcall := TimedClient.untimed_rpcPipeline s.timed (steps.map PlannedStep.op)
    (host s.calls.length)
  rw [h] at hcall
  unfold runPipeline Execution.runPipeline
  rw [← hcall]
  dsimp only
  generalize s.timed.rpcPipeline (steps.map PlannedStep.op) (host s.calls.length) = call
  have hresult : call.untimed.result = call.result := rfl
  rw [hresult]
  cases hres : call.result with
  | error error =>
    cases steps with
    | nil => rfl
    | cons first steps => rfl
  | ok resps =>
    let entry (answer : PlannedStep × Response) : StepReceipt :=
      ⟨answer.1.id, answer.2.ok, answer.2.error, answer.2.result, none⟩
    obtain ⟨hrun, hagree⟩ := @foldl_push_eq ((steps.zip resps).map entry)
      (s.called (steps.map PlannedStep.id) call id).noteSession rfl
    rw [List.foldl_map, List.foldl_map] at hrun
    rw [List.foldl_map] at hagree
    dsimp only
    cases (steps.zip resps).find? fun answer => !answer.2.ok with
    | some answer => exact congrArg (Execution.fail · _ _) hrun
    | none => exact ⟨hrun, hagree⟩

theorem runWave_eq (h : s.Agrees) (plan : Plan) (screenshots : Option ScreenshotCapture)
    (wave : List String) :
    SameOutcome (runWave host plan screenshots s wave)
      (Execution.runWave host plan screenshots s.toExecution wave) := by
  unfold runWave Execution.runWave
  cases plan.waveSteps wave with
  | none => rfl
  | some steps =>
    dsimp only
    split_ifs
    · exact runPipeline_eq h steps
    · refine foldlM_corresponds _ _ (fun step s s' hs => ?_) steps ⟨rfl, h⟩
      obtain ⟨rfl, hs⟩ := hs
      exact runStep_eq hs screenshots step

end TimedExecution

/-- Timeouts do not change what a run sends, gets and returns. -/
theorem toPlanRun_runPlanWithScreenshots (host : Nat → List (List Attempt)) (client : TimedClient)
    (plan : Plan) (yes : Bool) (screenshots : Option ScreenshotCapture) :
    (client.runPlanWithScreenshots host plan yes screenshots).toPlanRun =
      runPlanWithScreenshots host client.untimed plan yes screenshots := by
  unfold TimedClient.runPlanWithScreenshots runPlanWithScreenshots
  split_ifs
  · rfl
  · have hwaves : SameOutcome
        (plan.waves.foldlM (TimedExecution.runWave host plan screenshots) (.start client plan))
        (plan.waves.foldlM (Execution.runWave host plan screenshots)
          (.start client.untimed plan)) := by
      refine foldlM_corresponds _ _ (fun wave s s' hs => ?_) plan.waves ⟨rfl, rfl⟩
      obtain ⟨rfl, hs⟩ := hs
      exact TimedExecution.runWave_eq hs plan screenshots wave
    cases hs : plan.waves.foldlM (TimedExecution.runWave host plan screenshots)
        (.start client plan) with
    | error run =>
      rw [hs] at hwaves
      cases hs' : plan.waves.foldlM (Execution.runWave host plan screenshots)
          (.start client.untimed plan) with
      | error run' =>
        rw [hs'] at hwaves
        exact hwaves
      | ok s' => simp [hs', Corresponds] at hwaves
    | ok s =>
      rw [hs] at hwaves
      cases hs' : plan.waves.foldlM (Execution.runWave host plan screenshots)
          (.start client.untimed plan) with
      | error run' => simp [hs', Corresponds] at hwaves
      | ok s' =>
        rw [hs'] at hwaves
        obtain ⟨rfl, -⟩ := hwaves
        rfl

/-- What the steps of a wave send together, piece by piece. -/
def waveSent (screenshots : Option ScreenshotCapture) (steps : List PlannedStep) :
    List (List Op) :=
  if waveCanPipeline steps screenshots then pieces (steps.map PlannedStep.op)
  else steps.map fun step => [step.op]

/-- What waves send, up to one with a step that is not planned. -/
def Plan.sent (plan : Plan) (screenshots : Option ScreenshotCapture) :
    List (List String) → List (List Op)
  | [] => []
  | wave :: waves => match plan.waveSteps wave with
    | none => []
    | some steps => waveSent screenshots steps ++ plan.sent screenshots waves

namespace TimedExecution

/-- The waits up to the end of a part of a run. -/
def outcomeWaits : Except TimedRun TimedExecution → List ReplyWait
  | .ok s => s.waits
  | .error run => run.waits

/-- Every wait so far is covered. -/
structure Covering (timeout : Nat) (live : Option Nat) (s : TimedExecution) : Prop where
  kept : s.timed.timeout = timeout
  waits : ∀ w ∈ s.waits, w.Covered timeout
  session : SessionFrom live s.timed

/-- It is, and if the run goes on then from the session `live`. -/
def CoveredOutcome (timeout : Nat) (live : Option Nat) : Except TimedRun TimedExecution → Prop
  | .ok s => Covering timeout live s
  | .error run => ∀ w ∈ run.waits, w.Covered timeout

section Cover

variable {host : Nat → List (List Attempt)} {timeout : Nat} {live : Option Nat} {s : TimedExecution}

theorem covering_captureScreenshot (h : Covering timeout live s)
    (capture : Option ScreenshotCapture) (step : PlannedStep) :
    Covering timeout live (captureScreenshot host capture s step).2 := by
  cases capture with
  | none => exact h
  | some capture =>
    unfold captureScreenshot
    dsimp only
    split_ifs
    · exact h
    · obtain ⟨rfl, hwaits, hsession⟩ := h
      have hkept := TimedClient.kept_rpcOp s.timed
        (.screenshot (some (stepFile s.shotIndex step.id)) .viewport none none)
        ((host s.calls.length).headD [])
      refine ⟨hkept.kept, ?_, TimedClient.sessionFrom_rpcOp hsession _ _⟩
      exact List.forall_mem_append.mpr ⟨hwaits, hkept.waits⟩

theorem covered_runStep (ht : s.timed.timeout = timeout) (hw : ∀ w ∈ s.waits, w.Covered timeout)
    (screenshots : Option ScreenshotCapture) (step : PlannedStep) :
    CoveredOutcome timeout none (runStep host screenshots s step) := by
  subst ht
  have hkept := TimedClient.kept_rpcOp s.timed step.op ((host s.calls.length).headD [])
  unfold runStep
  dsimp only [rpcOp]
  generalize s.timed.rpcOp step.op ((host s.calls.length).headD []) = call at *
  -- the picture is taken whether or not the step has failed
  have hshot (live : Option Nat) (hlive : SessionFrom live call.client) :=
    @covering_captureScreenshot host s.timed.timeout live
      (noteSession (called { s with shotIndex := s.shotIndex + 1 } [step.id] call
        fun resp => [resp]))
      ⟨hkept.kept, List.forall_mem_append.mpr ⟨hw, hkept.waits⟩, hlive⟩ screenshots step
  generalize captureScreenshot host screenshots (noteSession (called
    { s with shotIndex := s.shotIndex + 1 } [step.id] call fun resp => [resp])) step = shot at *
  obtain ⟨shot, t⟩ := shot
  dsimp only at hshot ⊢
  cases hres : call.result with
  | error error => exact (hshot call.client.session fun _ h => .inr h).waits
  | ok resp =>
    have hcover := hshot none (hkept.session resp hres)
    dsimp only
    split_ifs
    · exact ⟨hcover.kept, hcover.waits, hcover.session⟩
    · exact hcover.waits

theorem covered_runSteps (screenshots : Option ScreenshotCapture) (steps : List PlannedStep) :
    ∀ {s : TimedExecution} {live : Option Nat}, Covering timeout live s →
      CoveredOutcome timeout (liveAfter live (steps.map fun step => [step.op]))
        (steps.foldlM (runStep host screenshots) s) := by
  induction steps with
  | nil => exact fun h => h
  | cons step steps ih =>
    intro s live h
    have hstep := @covered_runStep host timeout s h.kept h.waits screenshots step
    rw [List.foldlM_cons]
    cases hout : runStep host screenshots s step with
    | error run =>
      rw [hout] at hstep
      exact hstep
    | ok s' =>
      rw [hout] at hstep
      exact ih hstep

theorem foldl_push_fields (entries : List StepReceipt) : ∀ s : TimedExecution,
    (entries.foldl push s).timed = s.timed ∧ (entries.foldl push s).waits = s.waits := by
  induction entries with
  | nil => exact fun _ => ⟨rfl, rfl⟩
  | cons entry entries ih => exact fun s => ih (s.push entry)

theorem covered_runPipeline {steps : List PlannedStep}
    (hcov : PiecesCovered timeout live (pieces (steps.map PlannedStep.op)))
    (h : Covering timeout live s) :
    CoveredOutcome timeout (liveAfter live (pieces (steps.map PlannedStep.op)))
      (s.runPipeline host steps) := by
  obtain ⟨rfl, hwaits, hsession⟩ := h
  have hkept := TimedClient.kept_rpcPipeline hcov hsession (host s.calls.length)
  unfold runPipeline
  dsimp only
  generalize s.timed.rpcPipeline (steps.map PlannedStep.op) (host s.calls.length) = call at *
  have hw : ∀ w ∈ s.waits ++ call.waits, w.Covered s.timed.timeout :=
    List.forall_mem_append.mpr ⟨hwaits, hkept.waits⟩
  cases hres : call.result with
  | error error =>
    cases steps with
    | nil => exact hw
    | cons first steps => exact hw
  | ok resps =>
    let entry (answer : PlannedStep × Response) : StepReceipt :=
      ⟨answer.1.id, answer.2.ok, answer.2.error, answer.2.result, none⟩
    obtain ⟨htimed, hpushed⟩ := foldl_push_fields ((steps.zip resps).map entry)
      (s.called (steps.map PlannedStep.id) call id).noteSession
    rw [List.foldl_map] at htimed hpushed
    dsimp only
    cases (steps.zip resps).find? fun answer => !answer.2.ok with
    | some answer =>
      intro w hmem
      have hmem' := congrArg (w ∈ ·) hpushed
      exact hw w (hmem'.mp hmem)
    | none =>
      refine ⟨(congrArg TimedClient.timeout htimed).trans hkept.kept, ?_, ?_⟩
      · rw [hpushed]
        exact hw
      · rw [htimed]
        exact hkept.session resps hres

theorem covered_runWave {plan : Plan} {screenshots : Option ScreenshotCapture}
    {wave : List String} {steps : List PlannedStep} (hsteps : plan.waveSteps wave = some steps)
    (hcov : PiecesCovered timeout live (waveSent screenshots steps)) (h : Covering timeout live s) :
    CoveredOutcome timeout (liveAfter live (waveSent screenshots steps))
      (runWave host plan screenshots s wave) := by
  unfold runWave
  unfold waveSent at hcov ⊢
  rw [hsteps]
  dsimp only
  split_ifs at hcov ⊢
  · exact covered_runPipeline hcov h
  · exact covered_runSteps screenshots steps h

/-- Wave by wave, what is waited for is covered. -/
theorem covered_runWaves (plan : Plan) (screenshots : Option ScreenshotCapture)
    (waves : List (List String)) : ∀ {s : TimedExecution} {live : Option Nat},
      PiecesCovered timeout live (plan.sent screenshots waves) → Covering timeout live s →
      ∀ w ∈ outcomeWaits (waves.foldlM (runWave host plan screenshots) s), w.Covered timeout := by
  induction waves with
  | nil => exact fun _ h => h.waits
  | cons wave waves ih =>
    intro s live hcov h
    rw [List.foldlM_cons]
    rw [Plan.sent] at hcov
    cases hsteps : plan.waveSteps wave with
    | none =>
      have hout : runWave host plan screenshots s wave = .error s.panicked := by
        rw [runWave, hsteps]
      rw [hout]
      exact h.waits
    | some steps =>
      rw [hsteps] at hcov
      obtain ⟨hwave, hrest⟩ := (piecesCovered_append _ _ _).mp hcov
      have hstep := @covered_runWave host timeout live s plan screenshots wave steps hsteps hwave h
      cases hout : runWave host plan screenshots s wave with
      | error run =>
        rw [hout] at hstep
        exact hstep
      | ok s' =>
        rw [hout] at hstep
        exact ih hrest hstep

end Cover

section Obliging

variable {timeout n : Nat} {pick : Option Nat → Nat} {attempts : List Attempt} {s : TimedExecution}

/-- A part of a run that was answered goes on, with the waits of the pieces that it sent. -/
structure GoesOn (timeout : Nat) (pick : Option Nat → Nat) (s : TimedExecution)
    (sent : List (List Op)) (s' : TimedExecution) : Prop where
  kept : s'.timed.timeout = s.timed.timeout
  session : s'.timed.session = sessionAfterAll timeout pick s.timed.session sent
  waits : s.waits ⊆ s'.waits
  picked : (∀ w ∈ s'.waits, w.Covered timeout) → PickCovered timeout pick s.timed.session sent

theorem goesOn_runStep (h : Obliging timeout pick attempts) (ht : s.timed.timeout = timeout)
    (step : PlannedStep) :
    ∃ s', runStep (fun _ => List.replicate (n + 1) attempts) none s step = .ok s' ∧
      GoesOn timeout pick s [[step.op]] s' := by
  obtain ⟨hkept, hres, hsession, -⟩ := h s.timed [step.op] ht
  dsimp only [TimedClient.rpcPipelineChunk] at hkept hres hsession
  have hhead : (List.replicate (n + 1) attempts).headD [] = attempts := rfl
  unfold runStep
  dsimp only [rpcOp, captureScreenshot]
  rw [hhead]
  generalize s.timed.rpcOp step.op attempts = call at *
  cases hcall : call.result with
  | error error =>
    rw [hcall] at hres
    cases hres
  | ok resp =>
    rw [hcall] at hres
    obtain rfl : resp = .success "" := List.singleton_inj.mp (Except.ok.inj hres)
    refine ⟨_, rfl, hkept, hsession, List.subset_append_left _ _, fun _ =>
      ⟨fun hlen => ?_, trivial⟩⟩
    exact absurd hlen (by simp)

theorem GoesOn.trans {s' s'' : TimedExecution} {sent more : List (List Op)}
    (h : GoesOn timeout pick s sent s') (h' : GoesOn timeout pick s' more s'') :
    GoesOn timeout pick s (sent ++ more) s'' where
  kept := h'.kept.trans h.kept
  session := by
    rw [h'.session, h.session]
    exact (List.foldl_append ..).symm
  waits := List.Subset.trans h.waits h'.waits
  picked hcov := by
    refine (pickCovered_append _ _ _).mpr ⟨h.picked fun w hw => hcov w (h'.waits hw), ?_⟩
    rw [← h.session]
    exact h'.picked hcov

theorem goesOn_runSteps (h : Obliging timeout pick attempts) (steps : List PlannedStep) :
    ∀ {s : TimedExecution}, s.timed.timeout = timeout →
      ∃ s', steps.foldlM (runStep (fun _ => List.replicate (n + 1) attempts) none) s = .ok s' ∧
        GoesOn timeout pick s (steps.map fun step => [step.op]) s' := by
  induction steps with
  | nil => exact fun {s} _ => ⟨s, rfl, rfl, rfl, fun _ h => h, fun _ => trivial⟩
  | cons step steps ih =>
    intro s ht
    obtain ⟨s', hs', hgoes⟩ := @goesOn_runStep timeout n pick attempts s h ht step
    obtain ⟨s'', hs'', hgoes'⟩ := @ih s' (hgoes.kept.trans ht)
    rw [List.foldlM_cons, hs']
    exact ⟨s'', hs'', hgoes.trans hgoes'⟩

theorem goesOn_runPipeline (h : Obliging timeout pick attempts) (ht : s.timed.timeout = timeout)
    {steps : List PlannedStep} (hn : steps.length ≤ n) :
    ∃ s', s.runPipeline (fun _ => List.replicate (n + 1) attempts) steps = .ok s' ∧
      GoesOn timeout pick s (pieces (steps.map PlannedStep.op)) s' := by
  obtain ⟨hkept, hres, hsession, hwaits⟩ := @obligedAll_rpcPipeline timeout pick attempts h s.timed
    (steps.map PlannedStep.op) (n + 1) (by rw [List.length_map]; omega) ht
  unfold runPipeline
  dsimp only
  generalize s.timed.rpcPipeline (steps.map PlannedStep.op) (List.replicate (n + 1) attempts) =
    call at *
  rw [hres]
  dsimp only
  have hfind : (steps.zip ((pieces (steps.map PlannedStep.op)).flatten.map fun _ =>
      Response.success "")).find? (fun answer => !answer.2.ok) = none := by
    rw [List.find?_eq_none]
    intro answer hanswer
    obtain ⟨op, -, hop⟩ := List.mem_map.mp (List.of_mem_zip hanswer).2
    simp [← hop, Response.success]
  rw [hfind]
  let entry (answer : PlannedStep × Response) : StepReceipt :=
    ⟨answer.1.id, answer.2.ok, answer.2.error, answer.2.result, none⟩
  obtain ⟨htimed, hpushed⟩ := foldl_push_fields ((steps.zip ((pieces
    (steps.map PlannedStep.op)).flatten.map fun _ => Response.success "")).map entry)
    (s.called (steps.map PlannedStep.id) call id).noteSession
  rw [List.foldl_map] at htimed hpushed
  refine ⟨_, rfl, ?_, ?_, ?_, ?_⟩
  · exact (congrArg TimedClient.timeout htimed).trans hkept
  · exact (congrArg TimedClient.session htimed).trans hsession
  · rw [hpushed]
    exact List.subset_append_left _ _
  · rw [hpushed]
    exact fun hcov => hwaits fun w hw => hcov w (List.mem_append_right _ hw)

/-- A host that has everything answered brings out the waits of all waves. -/
theorem picked_runWaves (h : Obliging timeout pick attempts) (plan : Plan)
    (waves : List (List String)) : ∀ {s : TimedExecution}, s.timed.timeout = timeout →
      (∀ wave ∈ waves, wave.length ≤ n) →
      let outcome := waves.foldlM (runWave (fun _ => List.replicate (n + 1) attempts) plan none) s
      s.waits ⊆ outcomeWaits outcome ∧
        ((∀ w ∈ outcomeWaits outcome, w.Covered timeout) →
          PickCovered timeout pick s.timed.session (plan.sent none waves)) := by
  induction waves with
  | nil => exact fun _ _ => ⟨fun _ h => h, fun _ => trivial⟩
  | cons wave waves ih =>
    intro s ht hlen
    obtain ⟨hwave, hrest⟩ := List.forall_mem_cons.mp hlen
    rw [List.foldlM_cons, Plan.sent]
    cases hsteps : plan.waveSteps wave with
    | none =>
      have hout : runWave (fun _ => List.replicate (n + 1) attempts) plan none s wave =
          .error s.panicked := by
        rw [runWave, hsteps]
      rw [hout]
      exact ⟨fun _ h => h, fun _ => trivial⟩
    | some steps =>
      have hcount : steps.length = wave.length := length_of_mapM_eq_some hsteps
      have hgoes : ∃ s', runWave (fun _ => List.replicate (n + 1) attempts) plan none s wave =
          .ok s' ∧ GoesOn timeout pick s (waveSent none steps) s' := by
        unfold runWave waveSent
        rw [hsteps]
        dsimp only
        split_ifs
        · exact goesOn_runPipeline h ht (by omega)
        · exact goesOn_runSteps h steps ht
      obtain ⟨s', hs', hgoes⟩ := hgoes
      obtain ⟨hsub, hpicked⟩ := @ih s' (hgoes.kept.trans ht) hrest
      rw [hs']
      refine ⟨List.Subset.trans hgoes.waits hsub, fun hcov => ?_⟩
      refine (pickCovered_append _ _ _).mpr ⟨hgoes.picked fun w hw => hcov w (hsub hw), ?_⟩
      rw [← hgoes.session]
      exact hpicked hcov

end Obliging

end TimedExecution

/-- With pictures every op is sent alone. -/
theorem length_of_mem_sent_some {plan : Plan} {capture : ScreenshotCapture}
    {waves : List (List String)} {piece : List Op} (h : piece ∈ plan.sent (some capture) waves) :
    piece.length = 1 := by
  induction waves with
  | nil => cases h
  | cons wave waves ih =>
    rw [Plan.sent] at h
    cases hsteps : plan.waveSteps wave with
    | none => simp [hsteps] at h
    | some steps =>
      rw [hsteps] at h
      rcases List.mem_append.mp h with h | h
      · obtain ⟨step, -, rfl⟩ := List.mem_map.mp h
        rfl
      · exact ih h

theorem piecesCovered_of_alone {timeout : Nat} {sent : List (List Op)}
    (h : ∀ piece ∈ sent, piece.length = 1) :
    ∀ live, PiecesCovered timeout live sent := by
  induction sent with
  | nil => exact fun _ => trivial
  | cons piece rest ih =>
    intro live
    obtain ⟨hpiece, hrest⟩ := List.forall_mem_cons.mp h
    exact ⟨fun hlen => absurd hlen (by omega), ih hrest _⟩

/-- A client whose waits are covered whatever the host does. -/
theorem piecesCovered_of_covered {client : TimedClient} {plan : Plan}
    {screenshots : Option ScreenshotCapture}
    (h : ∀ host, ∀ w ∈ TimedExecution.outcomeWaits (plan.waves.foldlM
      (TimedExecution.runWave host plan screenshots) (.start client plan)),
      w.Covered client.timeout) :
    PiecesCovered client.timeout client.session (plan.sent screenshots plan.waves) := by
  cases screenshots with
  | some capture => exact piecesCovered_of_alone (fun _ hpiece => length_of_mem_sent_some hpiece) _
  | none =>
    have hlen : ∀ wave ∈ plan.waves, wave.length ≤ plan.waves.flatten.length :=
      fun wave hwave => List.Sublist.length_le (List.sublist_flatten_of_mem hwave)
    have hpick {pick : Option Nat → Nat} {attempts : List Attempt}
        (hobliging : Obliging client.timeout pick attempts) :
        PickCovered client.timeout pick client.session (plan.sent none plan.waves) :=
      (TimedExecution.picked_runWaves hobliging plan plan.waves
        (s := .start client plan) rfl hlen).2 (h _)
    exact piecesCovered_of_pickCovered _ _ _ _ (.inr rfl) (hpick (obliging_answering _))
      (hpick (obliging_dropping _))

/-- Whatever the host does, every reply in a run of a plan is waited for as long as its op needs,
exactly if the run is refused or the ops that go out in a pipeline need no more than the timeout of
the client, and no more than that of the session that the run finds, up to the first op that is
sent alone. -/
theorem waits_covered_iff (client : TimedClient) (plan : Plan) (yes : Bool)
    (screenshots : Option ScreenshotCapture) :
    (∀ host, ∀ w ∈ (client.runPlanWithScreenshots host plan yes screenshots).waits,
        timeoutFor client.timeout w.op ≤ w.readTimeout) ↔
      (plan.requiresYes && !yes) = true ∨
        PiecesCovered client.timeout client.session (plan.sent screenshots plan.waves) := by
  by_cases hrefused : (plan.requiresYes && !yes) = true
  · refine iff_of_true (fun host w hw => ?_) (.inl hrefused)
    unfold TimedClient.runPlanWithScreenshots at hw
    rw [if_pos hrefused] at hw
    cases hw
  · have hwaits (host : Nat → List (List Attempt)) :
        (client.runPlanWithScreenshots host plan yes screenshots).waits =
          TimedExecution.outcomeWaits (plan.waves.foldlM
            (TimedExecution.runWave host plan screenshots) (.start client plan)) := by
      unfold TimedClient.runPlanWithScreenshots
      rw [if_neg hrefused]
      cases plan.waves.foldlM (TimedExecution.runWave host plan screenshots)
        (.start client plan) with
      | error run => rfl
      | ok s => rfl
    constructor
    · intro h
      refine .inr (piecesCovered_of_covered fun host w hw => ?_)
      rw [← hwaits] at hw
      exact h host w hw
    · intro h host w hw
      rw [hwaits] at hw
      exact TimedExecution.covered_runWaves plan screenshots plan.waves
        (h.resolve_left hrefused) ⟨rfl, fun _ h => (by cases h), fun _ h => .inr h⟩ w hw

def slowWait : Op := .waitUntil 20000 { target := "status" }

/-- Two waits of twenty seconds in one wave. -/
def slowWaits : Plan where
  name := "slow"
  app := none
  steps := [⟨"a", slowWait, [], false, [.read], none, true⟩,
    ⟨"b", slowWait, [], false, [.read], none, true⟩]
  waves := [["a", "b"]]
  effects := [.read]
  requiresYes := false
  fingerprint := ""

/-- They are waited for eight seconds. -/
theorem not_covered_slowWaits :
    ¬ ∀ host, ∀ w ∈ ((TimedClient.connect "127.0.0.1:17421").runPlanWithScreenshots host slowWaits
        false none).waits,
      timeoutFor (TimedClient.connect "127.0.0.1:17421").timeout w.op ≤ w.readTimeout := by
  intro h
  have hwait : ReplyWait.mk slowWait (fromSecs 8) ∈ ((TimedClient.connect
      "127.0.0.1:17421").runPlanWithScreenshots (fun _ => [[answeringAttempt]]) slowWaits false
        none).waits := by
    decide +kernel
  exact absurd (h _ _ hwait) (by decide)

end GpuiAgent
