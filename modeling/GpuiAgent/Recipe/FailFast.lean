import GpuiAgent.Client.Answers
import GpuiAgent.Framework.Result
import GpuiAgent.Recipe.Compile
import GpuiAgent.Recipe.Run

namespace GpuiAgent

open Framework

/-- Some reply of the call is missing or says no. -/
def ClientCall.failed (call : ClientCall) : Bool :=
  match call.reply with
  | .ok resps => resps.any fun resp => !resp.ok
  | .error _ => true

/-- The entry of a receipt says what the call came to: the reply to the step it names, or the error
that left the call without replies. -/
def ClientCall.Reports (call : ClientCall) (entry : StepReceipt) : Prop :=
  match call.reply with
  | .ok resps => ∃ resp, (entry.id, resp) ∈ call.steps.zip resps ∧ entry.ok = resp.ok ∧
      entry.error = resp.error ∧ entry.result = resp.result
  | .error error => entry.id ∈ call.steps ∧ entry.ok = false ∧ entry.error = some error ∧
      entry.result = none

/-- Every entry says what one of the calls came to. -/
def Reported (calls : List ClientCall) (entries : List StepReceipt) : Prop :=
  ∀ entry ∈ entries, ∃ call ∈ calls, call.Reports entry

namespace PlanRun

/-- The op of the step was handed to the client. -/
def Sends (run : PlanRun) (id : String) : Prop := ∃ call ∈ run.calls, id ∈ call.steps

/-- It was, in a call that failed. -/
def Fails (run : PlanRun) (id : String) : Prop :=
  ∃ call ∈ run.calls, id ∈ call.steps ∧ call.failed = true

/-- The receipt that a run returns, with its result or with the error of a step. -/
def receipt? (run : PlanRun) : Option Receipt :=
  match run.result with
  | some (.ok receipt) => some receipt
  | some (.error (.step _ _ receipt)) => some receipt
  | _ => none

end PlanRun

section Calls

variable {plan : Plan} {calls : List ClientCall} {sent failed : List String} {call : ClientCall}

/-- The lines of a call carry the ops of its steps, or ask for a picture. -/
def Wired (plan : Plan) (call : ClientCall) : Prop :=
  ∀ line ∈ call.lines,
    (call.steps = [] ∧ ∃ name, line.op = .screenshot (some name) .viewport none none) ∨
      ∃ step ∈ plan.steps, step.id ∈ call.steps ∧ line.op = step.op

/-- The calls of a run so far: the steps that were sent, and those of the call that failed. -/
structure Calls (plan : Plan) (sent failed : List String) (calls : List ClientCall) : Prop where
  sent : calls.flatMap ClientCall.steps = sent
  failing : ∀ call ∈ calls, call.steps ≠ [] → call.failed = true → call.steps = failed
  wired : ∀ call ∈ calls, Wired plan call

/-- A picture sends no step. -/
theorem Calls.picture (h : Calls plan sent failed calls) (none : call.steps = [])
    (wired : Wired plan call) : Calls plan sent failed (calls ++ [call]) where
  sent := by rw [List.flatMap_append, h.sent, List.flatMap_singleton, none, List.append_nil]
  failing := by
    intro c hc hsteps
    obtain hc | hc := List.mem_append.mp hc
    · exact h.failing c hc hsteps
    · rw [List.mem_singleton.mp hc] at hsteps
      exact absurd none hsteps
  wired := List.forall_mem_append.mpr ⟨h.wired, by simpa using wired⟩

/-- The first failure is that of the last call. -/
theorem Calls.fail (h : Calls plan sent [] calls) (wired : Wired plan call) :
    Calls plan (sent ++ call.steps) call.steps (calls ++ [call]) where
  sent := by rw [List.flatMap_append, h.sent, List.flatMap_singleton]
  failing := by
    intro c hc hsteps hfailed
    obtain hc | hc := List.mem_append.mp hc
    · exact absurd (h.failing c hc hsteps hfailed) hsteps
    · rw [List.mem_singleton.mp hc]
  wired := List.forall_mem_append.mpr ⟨h.wired, by simpa using wired⟩

theorem Calls.answer (h : Calls plan sent [] calls) (wired : Wired plan call)
    (answered : call.failed = false) : Calls plan (sent ++ call.steps) [] (calls ++ [call]) where
  sent := (h.fail wired).sent
  failing := by
    intro c hc hsteps hfailed
    obtain hc | hc := List.mem_append.mp hc
    · exact h.failing c hc hsteps hfailed
    · rw [List.mem_singleton.mp hc, answered] at hfailed
      cases hfailed
  wired := (h.fail wired).wired

end Calls

/-- Later calls and entries of their own leave the earlier entries what they say. -/
theorem Reported.append {calls : List ClientCall} {entries : List StepReceipt}
    (h : Reported calls entries) {calls' : List ClientCall} (grown : calls <+: calls')
    {entries' : List StepReceipt} (reported : Reported calls' entries') :
    Reported calls' (entries ++ entries') := by
  refine List.forall_mem_append.mpr ⟨fun entry hentry => ?_, reported⟩
  obtain ⟨call, hcall, hreports⟩ := h entry hentry
  exact ⟨call, grown.subset hcall, hreports⟩

/-- A run under way: the steps that are done have all succeeded. -/
structure Going (plan : Plan) (done : List String) (s : Execution) : Prop where
  ok : s.receipt.ok = true
  entries : s.receipt.steps.map StepReceipt.id = done
  succeeded : ∀ entry ∈ s.receipt.steps, entry.ok = true
  reported : Reported s.calls s.receipt.steps
  calls : Calls plan done [] s.calls

/-- The receipt has the failure of the step, with the error that the run ends with. -/
def Blames (receipt : Receipt) (id error : String) : Prop :=
  ∃ entry ∈ receipt.steps, entry.id = id ∧ entry.ok = false ∧
    error = entry.error.getD "request failed"

/-- A run that a failure among the steps `unit`, which were sent together, has ended. -/
structure Halted (plan : Plan) (done unit : List String) (run : PlanRun) : Prop where
  result : ∃ id error receipt, run.result = some (.error (.step id error receipt)) ∧
    receipt.ok = false ∧ (∃ entered, entered <+: unit ∧
      receipt.steps.map StepReceipt.id = done ++ entered) ∧
    id ∈ unit ∧ Blames receipt id error ∧ Reported run.calls receipt.steps
  failed : ∃ call ∈ run.calls, call.steps = unit ∧ call.failed = true
  calls : Calls plan (done ++ unit) unit run.calls

namespace Execution

variable {host : Nat → List (List Attempt)} {plan : Plan} {done : List String} {s t : Execution}

theorem foldl_push (entries : List StepReceipt) : ∀ {s : Execution},
    (entries.foldl push s).receipt.steps = s.receipt.steps ++ entries ∧
      (entries.foldl push s).receipt.ok = s.receipt.ok ∧
      (entries.foldl push s).calls = s.calls := by
  induction entries with
  | nil => exact ⟨(List.append_nil _).symm, rfl, rfl⟩
  | cons entry entries ih =>
    intro s
    obtain ⟨hsteps, hok, hcalls⟩ := @ih (s.push entry)
    refine ⟨hsteps.trans ?_, hok, hcalls⟩
    exact (List.append_assoc s.receipt.steps [entry] entries)

section Entries

variable (entries : List StepReceipt) {unit : List String}

/-- Steps that succeed go on. -/
theorem going_push (h : Going plan done s) (same : t.receipt.steps = s.receipt.steps)
    (ok : t.receipt.ok = s.receipt.ok) (grown : s.calls <+: t.calls)
    (succeeded : ∀ entry ∈ entries, entry.ok = true) (reported : Reported t.calls entries)
    (calls : Calls plan (done ++ entries.map StepReceipt.id) [] t.calls) :
    Going plan (done ++ entries.map StepReceipt.id) (entries.foldl push t) := by
  obtain ⟨hsteps, hok, hcalls⟩ := @foldl_push entries t
  refine ⟨?_, ?_, ?_, ?_, hcalls ▸ calls⟩
  · rw [hok, ok, h.ok]
  · rw [hsteps, same, List.map_append, h.entries]
  · rw [hsteps, same]
    exact List.forall_mem_append.mpr ⟨h.succeeded, succeeded⟩
  · rw [hcalls, hsteps, same]
    exact h.reported.append grown reported

/-- A step that fails ends the run. -/
theorem halted_push (h : Going plan done s) (same : t.receipt.steps = s.receipt.steps)
    (grown : s.calls <+: t.calls) (entered : entries.map StepReceipt.id <+: unit)
    (reported : Reported t.calls entries)
    (failed : ∃ call ∈ t.calls, call.steps = unit ∧ call.failed = true)
    (calls : Calls plan (done ++ unit) unit t.calls) {entry : StepReceipt} (mem : entry ∈ entries)
    (no : entry.ok = false) (error : String) (text : error = entry.error.getD "request failed") :
    Halted plan done unit ((entries.foldl push t).fail entry.id error) := by
  obtain ⟨hsteps, -, hcalls⟩ := @foldl_push entries t
  refine ⟨⟨entry.id, error, _, rfl, rfl, ⟨entries.map StepReceipt.id, entered, ?_⟩, ?_, ?_, ?_⟩,
    ?_, ?_⟩
  · dsimp only
    rw [hsteps, same, List.map_append, h.entries]
  · exact entered.subset (List.mem_map_of_mem mem)
  · refine ⟨entry, ?_, rfl, no, text⟩
    dsimp only
    rw [hsteps]
    exact List.mem_append_right _ mem
  · unfold fail
    dsimp only
    rw [hcalls, hsteps, same]
    exact h.reported.append grown reported
  · unfold fail
    rw [hcalls]
    exact failed
  · unfold fail
    rw [hcalls]
    exact calls

end Entries

/-- A call for an op writes that op only. -/
theorem rpcOp_wired {ids : List String} {op : Op}
    (h : (ids = [] ∧ ∃ name, op = .screenshot (some name) .viewport none none) ∨
      ∃ step ∈ plan.steps, step.id ∈ ids ∧ op = step.op) :
    ∃ call, (s.rpcOp host ids op).2.calls = s.calls ++ [call] ∧ call.steps = ids ∧
      call.reply = (s.rpcOp host ids op).1.map (fun resp => [resp]) ∧ Wired plan call := by
  refine ⟨_, rfl, rfl, rfl, fun line hline => ?_⟩
  have hop := (AgentClient.roundtripLoop_id _ _ _ _ _ line hline).2
  rw [hop]
  exact h

/-- A picture leaves the receipt and the steps that were sent as they are. -/
theorem captureScreenshot_keeps {sent failed : List String} (capture : Option ScreenshotCapture)
    (step : PlannedStep) (h : Calls plan sent failed s.calls) :
    (captureScreenshot host capture s step).2.receipt = s.receipt ∧
      s.calls <+: (captureScreenshot host capture s step).2.calls ∧
      Calls plan sent failed (captureScreenshot host capture s step).2.calls := by
  cases capture with
  | none => exact ⟨rfl, List.prefix_refl _, h⟩
  | some capture =>
    unfold captureScreenshot
    dsimp only
    split_ifs
    · exact ⟨rfl, List.prefix_refl _, h⟩
    · obtain ⟨call, hcalls, hsteps, -, hwired⟩ := @rpcOp_wired host plan s []
        (.screenshot (some (stepFile s.shotIndex step.id)) .viewport none none)
        (.inl ⟨rfl, _, rfl⟩)
      refine ⟨rfl, ?_, ?_⟩
      · rw [hcalls]
        exact List.prefix_append _ _
      · rw [hcalls]
        exact h.picture hsteps hwired

/-- One step of a wave in sequence goes on or ends the run. -/
theorem runStep_cases (screenshots : Option ScreenshotCapture) {step : PlannedStep}
    (planned : step ∈ plan.steps) (h : Going plan done s) :
    (∃ s', runStep host screenshots s step = .ok s' ∧ Going plan (done ++ [step.id]) s') ∨
      ∃ run, runStep host screenshots s step = .error run ∧ Halted plan done [step.id] run := by
  obtain ⟨call, hcalls, hsteps, hreply, hwired⟩ :=
    @rpcOp_wired host plan { s with shotIndex := s.shotIndex + 1 } [step.id] step.op
      (.inr ⟨step, planned, List.mem_singleton_self _, rfl⟩)
  have hreceipt : (rpcOp host { s with shotIndex := s.shotIndex + 1 } [step.id] step.op).2.receipt =
      s.receipt := rfl
  unfold runStep
  dsimp only
  generalize rpcOp host { s with shotIndex := s.shotIndex + 1 } [step.id] step.op = sent at *
  obtain ⟨result, t⟩ := sent
  dsimp only at hcalls hreply hreceipt ⊢
  have hfail : Calls plan (done ++ [step.id]) [step.id] t.noteSession.calls := by
    have := h.calls.fail hwired
    rwa [hsteps, ← hcalls] at this
  obtain ⟨hsame, hgrown, hfail⟩ :=
    @captureScreenshot_keeps host plan t.noteSession _ _ screenshots step hfail
  have hanswer (answered : call.failed = false) :
      Calls plan (done ++ [step.id]) []
        (captureScreenshot host screenshots t.noteSession step).2.calls := by
    have := h.calls.answer hwired answered
    rw [hsteps, ← hcalls] at this
    exact (@captureScreenshot_keeps host plan t.noteSession _ _ screenshots step this).2.2
  generalize captureScreenshot host screenshots t.noteSession step = shot at *
  obtain ⟨shot, u⟩ := shot
  dsimp only at hsame hgrown hfail hanswer ⊢
  have hreceiptSteps : u.receipt.steps = s.receipt.steps := by
    rw [hsame, ← hreceipt]
    rfl
  have hok : u.receipt.ok = s.receipt.ok := by
    rw [hsame, ← hreceipt]
    rfl
  have hcall : s.calls ++ [call] <+: u.calls := hcalls ▸ hgrown
  have hgrown : s.calls <+: u.calls := (List.prefix_append _ _).trans hcall
  have hmem : call ∈ u.calls :=
    hcall.subset (List.mem_append_right _ (List.mem_singleton_self _))
  have hreported {entry : StepReceipt} (reports : call.Reports entry) :
      Reported u.calls [entry] := by
    intro other hother
    obtain rfl := List.mem_singleton.mp hother
    exact ⟨call, hmem, reports⟩
  cases result with
  | error error =>
    have reports : call.Reports ⟨step.id, false, some error, none, shot⟩ := by
      unfold ClientCall.Reports
      rw [hreply, hsteps]
      exact ⟨List.mem_singleton_self _, rfl, rfl, rfl⟩
    have failed : call.failed = true := by
      unfold ClientCall.failed
      rw [hreply]
      rfl
    refine .inr ⟨_, rfl, ?_⟩
    exact halted_push [⟨step.id, false, some error, none, shot⟩] h hreceiptSteps hgrown
      (List.prefix_refl _) (hreported reports) ⟨call, hmem, hsteps, failed⟩ hfail
      (List.mem_singleton_self _) rfl error rfl
  | ok resp =>
    have reports : call.Reports ⟨step.id, resp.ok, resp.error, resp.result, shot⟩ := by
      unfold ClientCall.Reports
      rw [hreply, hsteps]
      exact ⟨resp, List.mem_singleton_self _, rfl, rfl, rfl⟩
    have failed : call.failed = !resp.ok := by
      unfold ClientCall.failed
      rw [hreply]
      simp [Except.map]
    dsimp only
    cases hresp : resp.ok with
    | true =>
      rw [hresp] at reports failed
      refine .inl ⟨_, if_pos rfl, ?_⟩
      exact going_push [⟨step.id, true, resp.error, resp.result, shot⟩] h hreceiptSteps hok hgrown
        (by simp) (hreported reports) (hanswer failed)
    | false =>
      rw [hresp] at reports failed
      refine .inr ⟨_, if_neg Bool.false_ne_true, ?_⟩
      exact halted_push [⟨step.id, false, resp.error, resp.result, shot⟩] h hreceiptSteps hgrown
        (List.prefix_refl _) (hreported reports) ⟨call, hmem, hsteps, failed⟩ hfail
        (List.mem_singleton_self _) rfl _ rfl

/-- A wave in one pipeline goes on or ends the run. -/
theorem runPipeline_cases {steps : List PlannedStep} (planned : ∀ step ∈ steps, step ∈ plan.steps)
    (nonempty : steps ≠ []) (h : Going plan done s) :
    (∃ s', runPipeline host s steps = .ok s' ∧
        Going plan (done ++ steps.map PlannedStep.id) s') ∨
      ∃ run, runPipeline host s steps = .error run ∧
        Halted plan done (steps.map PlannedStep.id) run := by
  unfold runPipeline
  dsimp only
  have hlog := s.client.rpcPipeline_log (steps.map PlannedStep.op) (host s.calls.length)
  have hlength (resps : List Response) := @AgentClient.rpcPipeline_length s.client
    (steps.map PlannedStep.op) (host s.calls.length) resps
  generalize s.client.rpcPipeline (steps.map PlannedStep.op) (host s.calls.length) = call at *
  have hwired : Wired plan ⟨steps.map PlannedStep.id, call.result.map id, call.log⟩ := by
    intro line hline
    obtain ⟨j, hj, -⟩ := hlog line hline
    obtain ⟨step, hstep, hop⟩ := List.mem_map.mp (List.mem_of_getElem? hj)
    exact .inr ⟨step, planned step hstep, List.mem_map_of_mem hstep, hop.symm⟩
  have hfail := h.calls.fail hwired
  have hanswer := h.calls.answer hwired
  have hsame : (s.called (steps.map PlannedStep.id) call id).noteSession.receipt.steps =
      s.receipt.steps := rfl
  have hok : (s.called (steps.map PlannedStep.id) call id).noteSession.receipt.ok =
      s.receipt.ok := rfl
  have hgrown : s.calls <+: (s.called (steps.map PlannedStep.id) call id).noteSession.calls :=
    List.prefix_append _ _
  have hmem : ⟨steps.map PlannedStep.id, call.result.map id, call.log⟩ ∈
      (s.called (steps.map PlannedStep.id) call id).noteSession.calls :=
    List.mem_append_right _ (List.mem_singleton_self _)
  cases hres : call.result with
  | error error =>
    cases steps with
    | nil => exact absurd rfl nonempty
    | cons first steps =>
      have failed : ClientCall.failed
          ⟨(first :: steps).map PlannedStep.id, call.result.map id, call.log⟩ = true := by
        unfold ClientCall.failed
        rw [hres]
        rfl
      have reported : Reported
          (s.called ((first :: steps).map PlannedStep.id) call id).noteSession.calls
          [⟨first.id, false, some error, none, none⟩] := by
        intro entry hentry
        obtain rfl := List.mem_singleton.mp hentry
        refine ⟨_, hmem, ?_⟩
        unfold ClientCall.Reports
        rw [hres]
        exact ⟨List.mem_cons_self, rfl, rfl, rfl⟩
      refine .inr ⟨_, rfl, ?_⟩
      exact halted_push [⟨first.id, false, some error, none, none⟩] h hsame hgrown
        ⟨steps.map PlannedStep.id, rfl⟩ reported ⟨_, hmem, rfl, failed⟩ hfail
        (List.mem_singleton_self _) rfl error rfl
  | ok resps =>
    have hlen : resps.length = steps.length := by simpa using hlength resps hres
    let entry (answer : PlannedStep × Response) : StepReceipt :=
      ⟨answer.1.id, answer.2.ok, answer.2.error, answer.2.result, none⟩
    have hids : ((steps.zip resps).map entry).map StepReceipt.id = steps.map PlannedStep.id := by
      have hzip := congrArg (List.map PlannedStep.id) (List.map_fst_zip hlen.ge)
      rwa [List.map_map] at hzip ⊢
    have hfold (t : Execution) : (steps.zip resps).foldl (fun s answer => s.push (entry answer)) t =
        ((steps.zip resps).map entry).foldl push t := List.foldl_map.symm
    have reported : Reported (s.called (steps.map PlannedStep.id) call id).noteSession.calls
        ((steps.zip resps).map entry) := by
      intro e he
      obtain ⟨answer, hanswer, rfl⟩ := List.mem_map.mp he
      refine ⟨_, hmem, ?_⟩
      unfold ClientCall.Reports
      rw [hres]
      refine ⟨answer.2, ?_, rfl, rfl, rfl⟩
      rw [id, List.zip_map_left]
      exact List.mem_map_of_mem hanswer
    dsimp only
    rw [hfold]
    cases hfind : (steps.zip resps).find? fun answer => !answer.2.ok with
    | some answer =>
      obtain ⟨step, resp⟩ := answer
      have hno : resp.ok = false := by simpa using List.find?_some hfind
      have hanswer := List.mem_of_find?_eq_some hfind
      have failed : ClientCall.failed
          ⟨steps.map PlannedStep.id, call.result.map id, call.log⟩ = true := by
        unfold ClientCall.failed
        rw [hres]
        exact List.any_eq_true.mpr ⟨resp, (List.of_mem_zip hanswer).2, by simp [hno]⟩
      refine .inr ⟨_, rfl, ?_⟩
      exact halted_push ((steps.zip resps).map entry) h hsame hgrown
        ⟨[], (List.append_nil _).trans hids⟩ reported ⟨_, hmem, rfl, failed⟩ hfail
        (List.mem_map_of_mem hanswer) hno _ rfl
    | none =>
      have hyes : ∀ answer ∈ steps.zip resps, answer.2.ok = true := by
        simpa using List.find?_eq_none.mp hfind
      have answered : ClientCall.failed ⟨steps.map PlannedStep.id, call.result.map id, call.log⟩ =
          false := by
        unfold ClientCall.failed
        rw [hres]
        dsimp only [Except.map]
        rw [List.any_eq_false]
        intro resp hresp
        have hsnd : (steps.zip resps).map Prod.snd = resps := List.map_snd_zip hlen.le
        rw [id, ← hsnd] at hresp
        obtain ⟨answer, hanswer, rfl⟩ := List.mem_map.mp hresp
        simp [hyes answer hanswer]
      have succeeded : ∀ e ∈ (steps.zip resps).map entry, e.ok = true := by
        intro e he
        obtain ⟨answer, hanswer, rfl⟩ := List.mem_map.mp he
        exact hyes answer hanswer
      have going := going_push ((steps.zip resps).map entry) h hsame hok hgrown succeeded reported
        (hids.symm ▸ hanswer answered)
      rw [hids] at going
      exact .inl ⟨_, rfl, going⟩

/-- The steps that a wave names are found. -/
theorem waveSteps_eq {wave : List String}
    (known : ∀ id ∈ wave, id ∈ plan.steps.map PlannedStep.id) :
    ∃ steps, plan.waveSteps wave = some steps ∧ steps.map PlannedStep.id = wave ∧
      ∀ step ∈ steps, step ∈ plan.steps := by
  unfold Plan.waveSteps
  induction wave with
  | nil => exact ⟨[], rfl, rfl, fun _ h => absurd h List.not_mem_nil⟩
  | cons id wave ih =>
    obtain ⟨hid, hwave⟩ := List.forall_mem_cons.mp known
    obtain ⟨steps, hsteps, hids, hmem⟩ := ih hwave
    obtain ⟨step, hstep, rfl⟩ := List.mem_map.mp hid
    cases hfind : plan.steps.find? fun other => other.id = step.id with
    | none =>
      have := List.find?_eq_none.mp hfind step hstep
      simp at this
    | some found =>
      have hfound : found.id = step.id := by simpa using List.find?_some hfind
      refine ⟨found :: steps, ?_, ?_, ?_⟩
      · rw [List.mapM_cons, hfind, hsteps]
        rfl
      · rw [List.map_cons, hfound, hids]
      · exact List.forall_mem_cons.mpr ⟨List.mem_of_find?_eq_some hfind, hmem⟩

end Execution

/-- A failure within a wave: the steps before it are done, and those after it are not sent. A wave
in sequence sends its steps one by one. -/
def HaltedIn (plan : Plan) (screenshots : Option ScreenshotCapture) (done wave : List String)
    (run : PlanRun) : Prop :=
  ∃ pre unit post, wave = pre ++ (unit ++ post) ∧ Halted plan (done ++ pre) unit run ∧
    ∀ steps, plan.waveSteps wave = some steps → waveCanPipeline steps screenshots = false →
      ∃ id, unit = [id]

namespace Execution

variable {host : Nat → List (List Attempt)} {plan : Plan} {done : List String} {s : Execution}

/-- A wave goes on or ends the run. -/
theorem runWave_cases (screenshots : Option ScreenshotCapture) {wave : List String}
    (known : ∀ id ∈ wave, id ∈ plan.steps.map PlannedStep.id) (h : Going plan done s) :
    (∃ s', runWave host plan screenshots s wave = .ok s' ∧ Going plan (done ++ wave) s') ∨
      ∃ run, runWave host plan screenshots s wave = .error run ∧
        HaltedIn plan screenshots done wave run := by
  obtain ⟨steps, hsteps, rfl, planned⟩ := waveSteps_eq known
  unfold runWave
  rw [hsteps]
  dsimp only
  cases hpipeline : waveCanPipeline steps screenshots with
  | true =>
    have nonempty : steps ≠ [] := by
      rintro rfl
      simp [waveCanPipeline] at hpipeline
    obtain ⟨s', hs', h'⟩ | ⟨run, hrun, halted⟩ := runPipeline_cases planned nonempty h
    · exact .inl ⟨s', hs', h'⟩
    · refine .inr ⟨run, hrun, [], _, [], (List.append_nil _).symm, ?_, ?_⟩
      · rwa [List.append_nil]
      · intro steps' hsteps' hsequence
        obtain rfl := Option.some.inj (hsteps'.symm.trans hsteps)
        cases hsequence.symm.trans hpipeline
  | false =>
    have hstep (part : List PlannedStep) (step : PlannedStep) (hstep : step ∈ steps) (s : Execution)
        (h : Going plan (done ++ part.map PlannedStep.id) s) :
        (∃ s', runStep host screenshots s step = .ok s' ∧
            Going plan (done ++ (part ++ [step]).map PlannedStep.id) s') ∨
          ∃ run, runStep host screenshots s step = .error run ∧
            Halted plan (done ++ part.map PlannedStep.id) [step.id] run := by
      rw [List.map_append, ← List.append_assoc]
      exact runStep_cases screenshots (planned step hstep) h
    have start : Going plan (done ++ [].map PlannedStep.id) s := by
      rwa [List.map_nil, List.append_nil]
    obtain ⟨s', hs', h'⟩ | ⟨pre, step, post, run, rfl, hrun, halted⟩ := foldlM_cases
      (runStep host screenshots) (fun part s => Going plan (done ++ part.map PlannedStep.id) s)
      (fun part step run => Halted plan (done ++ part.map PlannedStep.id) [step.id] run) steps
      hstep start
    · exact .inl ⟨s', hs', h'⟩
    · refine .inr ⟨run, hrun, pre.map PlannedStep.id, [step.id], post.map PlannedStep.id, ?_,
        halted, fun _ _ _ => ⟨step.id, rfl⟩⟩
      rw [List.map_append, List.map_cons, List.singleton_append]

end Execution

/-- How a run of a compiled plan ends: it waits for a `yes`, or it goes through all waves, or a
failure in one of them ends it. -/
theorem runPlan_cases {plan : Plan} (host : Nat → List (List Attempt)) (client : AgentClient)
    (yes : Bool) (screenshots : Option ScreenshotCapture)
    (flat : plan.waves.flatten = plan.steps.map PlannedStep.id) :
    let run := runPlanWithScreenshots host client plan yes screenshots
    (run.result = some (.error .needsYes) ∧ run.calls = [] ∧ plan.requiresYes = true) ∨
      (∃ s, Going plan plan.waves.flatten s ∧ run.calls = s.calls ∧
        run.result = some (.ok s.noteSession.receipt)) ∨
      ∃ before wave after, plan.waves = before ++ wave :: after ∧
        HaltedIn plan screenshots before.flatten wave run := by
  intro run
  by_cases blocked : (plan.requiresYes && !yes) = true
  · have hrun : run = ⟨some (.error .needsYes), client, []⟩ := if_pos blocked
    rw [hrun]
    exact .inl ⟨rfl, rfl, (Bool.and_eq_true_iff.mp blocked).1⟩
  · have hwave (done : List (List String)) (wave : List String) (hwave : wave ∈ plan.waves)
        (s : Execution) (h : Going plan done.flatten s) :
        (∃ s', Execution.runWave host plan screenshots s wave = .ok s' ∧
            Going plan (done ++ [wave]).flatten s') ∨
          ∃ run, Execution.runWave host plan screenshots s wave = .error run ∧
            HaltedIn plan screenshots done.flatten wave run := by
      rw [List.flatten_append, List.flatten_singleton]
      refine Execution.runWave_cases screenshots (fun id hid => ?_) h
      rw [← flat]
      exact List.mem_flatten.mpr ⟨wave, hwave, hid⟩
    have start : Going plan [].flatten (Execution.start client plan) :=
      ⟨rfl, rfl, List.forall_mem_nil _, List.forall_mem_nil _, rfl, List.forall_mem_nil _,
        List.forall_mem_nil _⟩
    obtain ⟨s, hs, h⟩ | ⟨before, wave, after, run', hsplit, hrun', halted⟩ := foldlM_cases
      (Execution.runWave host plan screenshots) (fun done s => Going plan done.flatten s)
      (fun done wave run => HaltedIn plan screenshots done.flatten wave run) plan.waves hwave start
    · have hrun : run = ⟨some (.ok s.noteSession.receipt), s.client, s.calls⟩ := by
        change runPlanWithScreenshots host client plan yes screenshots = _
        unfold runPlanWithScreenshots
        rw [if_neg blocked, hs]
      rw [hrun]
      exact .inr (.inl ⟨s, h, rfl, rfl⟩)
    · have hrun : run = run' := by
        change runPlanWithScreenshots host client plan yes screenshots = _
        unfold runPlanWithScreenshots
        rw [if_neg blocked, hrun']
      rw [hrun]
      exact .inr (.inr ⟨before, wave, after, hsplit, halted⟩)

section Order

variable {α : Type*}

/-- Two places of a list of waves without repetitions that share an entry are one. -/
theorem split_unique {a b c d : List (List α)} {x y : List α} {v : α}
    (hnodup : (a ++ x :: b).flatten.Nodup) (h : a ++ x :: b = c ++ y :: d) (hx : v ∈ x)
    (hy : v ∈ y) : a = c ∧ x = y ∧ b = d := by
  -- between two different places a repetition of the entry would lie
  have apart {a t d : List (List α)} {x y : List α} (hx : v ∈ x) (hy : v ∈ y) :
      ¬ (a ++ x :: (t ++ y :: d)).flatten.Nodup := by
    intro hnodup
    rw [List.flatten_append, List.flatten_cons, List.nodup_append] at hnodup
    obtain ⟨-, hnodup, -⟩ := hnodup
    refine (List.nodup_append.mp hnodup).2.2 v hx v ?_ rfl
    exact List.mem_flatten.mpr ⟨y, List.mem_append_right _ List.mem_cons_self, hy⟩
  obtain ⟨t, rfl, ht⟩ | ⟨t, rfl, ht⟩ := List.append_eq_append_iff.mp h
  · cases t with
    | nil =>
      obtain ⟨rfl, rfl⟩ := List.cons.inj ht
      exact ⟨(List.append_nil _).symm, rfl, rfl⟩
    | cons z t =>
      obtain ⟨rfl, rfl⟩ := List.cons.inj ht
      exact absurd hnodup (apart hx hy)
  · cases t with
    | nil =>
      obtain ⟨rfl, rfl⟩ := List.cons.inj ht
      exact ⟨List.append_nil _, rfl, rfl⟩
    | cons z t =>
      obtain ⟨rfl, rfl⟩ := List.cons.inj ht
      rw [h] at hnodup
      exact absurd hnodup (apart hy hx)

end Order

section Calls

variable {plan : Plan} {sent failed : List String} {run : PlanRun} {id : String}

theorem Calls.sends_iff (h : Calls plan sent failed run.calls) : run.Sends id ↔ id ∈ sent := by
  rw [← h.sent, List.mem_flatMap]
  rfl

theorem Calls.mem_of_fails (h : Calls plan sent failed run.calls) (fails : run.Fails id) :
    id ∈ failed := by
  obtain ⟨call, hcall, hid, hfailed⟩ := fails
  rw [← h.failing call hcall (List.ne_nil_of_mem hid) hfailed]
  exact hid

end Calls

/-- What is promised of the run of a plan. After a failure no later wave is sent, nor a later step of
a wave in sequence; the receipt names the steps in order, from the first one on, and says of each
what the host replied; the run succeeds exactly if all steps were sent and answered with a yes, and
ends with the error of a step exactly if a call failed. -/
structure FailFast (plan : Plan) (screenshots : Option ScreenshotCapture) (run : PlanRun) :
    Prop where
  later_wave : ∀ before wave after, plan.waves = before ++ wave :: after →
    (∃ id ∈ wave, run.Fails id) → ∀ later ∈ after, ∀ id ∈ later, ¬ run.Sends id
  later_step : ∀ wave ∈ plan.waves, ∀ steps, plan.waveSteps wave = some steps →
    waveCanPipeline steps screenshots = false → ∀ pre id post, wave = pre ++ id :: post →
      run.Fails id → ∀ later ∈ post, ¬ run.Sends later
  entries : ∀ receipt, run.receipt? = some receipt →
    receipt.steps.map StepReceipt.id <+: plan.waves.flatten ∧
      (receipt.steps.map StepReceipt.id).Nodup
  ok_iff : (∃ receipt, run.result = some (.ok receipt)) ↔
    ∃ receipt, run.receipt? = some receipt ∧ receipt.ok = true ∧
      ∀ step ∈ plan.steps, ∃ entry ∈ receipt.steps, entry.id = step.id ∧ entry.ok = true
  error : ∀ id error receipt, run.result = some (.error (.step id error receipt)) →
    receipt.ok = false
  reported : ∀ receipt, run.receipt? = some receipt → Reported run.calls receipt.steps
  ok_iff_answered : (∃ receipt, run.result = some (.ok receipt)) ↔
    (∀ step ∈ plan.steps, run.Sends step.id) ∧
      ∀ call ∈ run.calls, call.steps ≠ [] → call.failed = false
  fails_iff : (∃ id, run.Fails id) ↔
    ∃ id error receipt, run.result = some (.error (.step id error receipt))
  blamed : ∀ id error receipt, run.result = some (.error (.step id error receipt)) →
    run.Fails id ∧ Blames receipt id error
  wired : ∀ call ∈ run.calls, Wired plan call
  returns : run.result ≠ none

section FailFast

variable {plan : Plan} {screenshots : Option ScreenshotCapture} {run : PlanRun}

/-- A run that sends nothing. -/
theorem failFast_of_needsYes (result : run.result = some (.error .needsYes))
    (silent : run.calls = []) (nonempty : plan.steps ≠ []) : FailFast plan screenshots run := by
  have sends (id : String) : ¬ run.Sends id := by
    rintro ⟨call, hcall, -⟩
    rw [silent] at hcall
    cases hcall
  have error (id error : String) (receipt : Receipt) :
      run.result ≠ some (.error (.step id error receipt)) := by
    rw [result]
    nofun
  have hnone : run.receipt? = none := by
    unfold PlanRun.receipt?
    rw [result]
  refine ⟨fun _ _ _ _ _ _ _ id _ => sends id, fun _ _ _ _ _ _ _ _ _ _ id _ => sends id, ?_, ?_, ?_,
    ?_, ?_, ?_, ?_, ?_, ?_⟩
  · intro receipt h
    cases h.symm.trans hnone
  · refine iff_of_false ?_ ?_
    · rintro ⟨receipt, h⟩
      cases h.symm.trans result
    · rintro ⟨receipt, h, -⟩
      cases h.symm.trans hnone
  · intro id text receipt h
    exact absurd h (error id text receipt)
  · intro receipt h
    cases h.symm.trans hnone
  · refine iff_of_false ?_ ?_
    · rintro ⟨receipt, h⟩
      cases h.symm.trans result
    · rintro ⟨hsent, -⟩
      obtain ⟨step, hstep⟩ := List.exists_mem_of_ne_nil _ nonempty
      exact sends step.id (hsent step hstep)
  · refine iff_of_false ?_ ?_
    · rintro ⟨id, call, hcall, hid, -⟩
      exact sends id ⟨call, hcall, hid⟩
    · rintro ⟨id, text, receipt, h⟩
      exact error id text receipt h
  · intro id text receipt h
    exact absurd h (error id text receipt)
  · intro call hcall
    rw [silent] at hcall
    cases hcall
  · rw [result]
    exact Option.some_ne_none _

/-- A run through all waves. -/
theorem failFast_of_going {s : Execution} (h : Going plan plan.waves.flatten s)
    (flat : plan.waves.flatten = plan.steps.map PlannedStep.id) (unique : plan.waves.flatten.Nodup)
    (hcalls : run.calls = s.calls) (result : run.result = some (.ok s.noteSession.receipt)) :
    FailFast plan screenshots run := by
  have calls : Calls plan plan.waves.flatten [] run.calls := hcalls ▸ h.calls
  have fails (id : String) : ¬ run.Fails id := fun hid => by cases calls.mem_of_fails hid
  have hreceipt : run.receipt? = some s.noteSession.receipt := by
    unfold PlanRun.receipt?
    rw [result]
  have hentries : s.noteSession.receipt.steps.map StepReceipt.id = plan.waves.flatten := h.entries
  refine ⟨?_, ?_, ?_, ?_, ?_, ?_, ?_, ?_, ?_, calls.wired, ?_⟩
  · rintro before wave after - ⟨id, -, hid⟩
    exact absurd hid (fails id)
  · intro wave _ steps _ _ pre id post _ hid
    exact absurd hid (fails id)
  · intro receipt hr
    obtain rfl := Option.some.inj (hreceipt.symm.trans hr)
    rw [hentries]
    exact ⟨List.prefix_refl _, unique⟩
  · refine iff_of_true ⟨_, result⟩ ⟨_, hreceipt, h.ok, fun step hstep => ?_⟩
    have hid : step.id ∈ s.noteSession.receipt.steps.map StepReceipt.id := by
      rw [hentries, flat]
      exact List.mem_map_of_mem hstep
    obtain ⟨entry, hentry, heq⟩ := List.mem_map.mp hid
    exact ⟨entry, hentry, heq, h.succeeded entry hentry⟩
  · intro id error receipt hr
    cases hr.symm.trans result
  · intro receipt hr
    obtain rfl := Option.some.inj (hreceipt.symm.trans hr)
    rw [hcalls]
    exact h.reported
  · refine iff_of_true ⟨_, result⟩ ⟨fun step hstep => ?_, fun call hcall hsteps => ?_⟩
    · rw [calls.sends_iff, flat]
      exact List.mem_map_of_mem hstep
    · by_contra hfailed
      exact hsteps (calls.failing call hcall hsteps (Bool.eq_true_of_not_eq_false hfailed))
  · refine iff_of_false ?_ ?_
    · rintro ⟨id, hid⟩
      exact fails id hid
    · rintro ⟨id, error, receipt, hr⟩
      cases hr.symm.trans result
  · intro id error receipt hr
    cases hr.symm.trans result
  · rw [result]
    exact Option.some_ne_none _

/-- A run that a failure ends. -/
theorem failFast_of_halted {before after : List (List String)} {wave : List String}
    (split : plan.waves = before ++ wave :: after)
    (h : HaltedIn plan screenshots before.flatten wave run)
    (flat : plan.waves.flatten = plan.steps.map PlannedStep.id)
    (unique : plan.waves.flatten.Nodup) : FailFast plan screenshots run := by
  obtain ⟨pre, unit, post, hwave, halted, hsequence⟩ := h
  obtain ⟨id, error, receipt, hresult, hok, ⟨entered, hentered, hentries⟩, hunit, blames, reported⟩ :=
    halted.result
  obtain ⟨call, hcall, hsteps, hfailed⟩ := halted.failed
  have hflat : plan.waves.flatten =
      (before.flatten ++ pre ++ unit) ++ (post ++ after.flatten) := by
    rw [split, hwave]
    simp
  have hreceipt : run.receipt? = some receipt := by
    unfold PlanRun.receipt?
    rw [hresult]
  have unsent (later : String) (hlater : later ∈ post ++ after.flatten) : ¬ run.Sends later := by
    rw [halted.calls.sends_iff]
    intro hsent
    rw [hflat] at unique
    exact (List.nodup_append.mp unique).2.2 later hsent later hlater rfl
  have failing (id : String) (hid : run.Fails id) : id ∈ unit := halted.calls.mem_of_fails hid
  have inWave (id : String) (hid : run.Fails id) : id ∈ wave := by
    rw [hwave]
    exact List.mem_append_right _ (List.mem_append_left _ (failing id hid))
  have hbegin : receipt.steps.map StepReceipt.id <+: plan.waves.flatten := by
    rw [hentries, hflat]
    refine List.IsPrefix.trans ?_ (List.prefix_append _ _)
    exact (List.prefix_append_right_inj _).mpr hentered
  have hnodup : (receipt.steps.map StepReceipt.id).Nodup := unique.sublist hbegin.sublist
  have failsUnit (other : String) (hother : other ∈ unit) : run.Fails other :=
    ⟨call, hcall, hsteps ▸ hother, hfailed⟩
  refine ⟨?_, ?_, ?_, ?_, ?_, ?_, ?_, ?_, ?_, halted.calls.wired, ?_⟩
  · rintro before' wave' after' hsplit ⟨id, hid, hfails⟩ later hlater other hother
    obtain ⟨-, -, rfl⟩ := split_unique (hsplit ▸ unique) (hsplit.symm.trans split) hid
      (inWave id hfails)
    exact unsent other (List.mem_append_right _ (List.mem_flatten.mpr ⟨later, hlater, hother⟩))
  · intro wave' hwave' steps hsteps hpipeline pre' id post' hcut hfails later hlater
    obtain ⟨before', after', hsplit⟩ := List.append_of_mem hwave'
    have hid : id ∈ wave' := by
      rw [hcut]
      exact List.mem_append_right _ List.mem_cons_self
    obtain ⟨-, rfl, -⟩ := split_unique (hsplit ▸ unique) (hsplit.symm.trans split) hid
      (inWave id hfails)
    obtain ⟨u, rfl⟩ := hsequence steps hsteps hpipeline
    obtain rfl := List.mem_singleton.mp (failing id hfails)
    -- the wave has the step once, so nothing that follows it has been sent
    have hnodupWave : wave'.Nodup := by
      rw [split, List.flatten_append, List.flatten_cons] at unique
      exact (List.nodup_append.mp (List.nodup_append.mp unique).2.1).1
    rw [hwave, List.singleton_append, List.nodup_middle, List.nodup_cons, List.mem_append,
      not_or] at hnodupWave
    obtain ⟨-, -, rfl⟩ := (List.append_cons_inj_of_notMem hnodupWave.1.1 hnodupWave.1.2).mp
      (hwave.symm.trans hcut)
    exact unsent later (List.mem_append_left _ hlater)
  · intro receipt' hr
    obtain rfl := Option.some.inj (hreceipt.symm.trans hr)
    exact ⟨hbegin, hnodup⟩
  · refine iff_of_false ?_ ?_
    · rintro ⟨receipt', hr⟩
      cases hr.symm.trans hresult
    · rintro ⟨receipt', hr, -, hall⟩
      obtain rfl := Option.some.inj (hreceipt.symm.trans hr)
      obtain ⟨entry, hentry, -, hno, -⟩ := blames
      have hid : entry.id ∈ plan.steps.map PlannedStep.id := by
        rw [← flat]
        exact hbegin.subset (List.mem_map_of_mem hentry)
      obtain ⟨step, hstep, heq⟩ := List.mem_map.mp hid
      obtain ⟨other, hother, hotherId, hyes⟩ := hall step hstep
      obtain rfl := List.inj_on_of_nodup_map hnodup hother hentry (hotherId.trans heq)
      cases hno.symm.trans hyes
  · intro id' error' receipt' hr
    have herror := Except.error.inj (Option.some.inj (hresult.symm.trans hr))
    obtain ⟨-, -, rfl⟩ := RunError.step.inj herror
    exact hok
  · intro receipt' hr
    obtain rfl := Option.some.inj (hreceipt.symm.trans hr)
    exact reported
  · refine iff_of_false ?_ ?_
    · rintro ⟨receipt', hr⟩
      cases hr.symm.trans hresult
    · rintro ⟨-, hall⟩
      cases hfailed.symm.trans (hall call hcall (hsteps ▸ List.ne_nil_of_mem hunit))
  · exact iff_of_true ⟨id, failsUnit id hunit⟩ ⟨id, error, receipt, hresult⟩
  · intro id' error' receipt' hr
    have herror := Except.error.inj (Option.some.inj (hresult.symm.trans hr))
    obtain ⟨rfl, rfl, rfl⟩ := RunError.step.inj herror
    exact ⟨failsUnit id hunit, blames⟩
  · rw [hresult]
    exact Option.some_ne_none _

end FailFast

/-- Whatever the host does, the run of a compiled plan stops at the first failure, and its receipt
says so. -/
theorem runPlan_failFast (digest : Json → UInt64) (recipe : Recipe) (set : Params)
    (registry : Registry) (plan : Plan)
    (compiled : compilePlan digest recipe set registry = .ok plan)
    (host : Nat → List (List Attempt)) (client : AgentClient) (yes : Bool)
    (screenshots : Option ScreenshotCapture) :
    FailFast plan screenshots (runPlanWithScreenshots host client plan yes screenshots) := by
  have spec := compilePlan_compiled compiled
  have unique : plan.waves.flatten.Nodup := spec.flat ▸ spec.ids
  obtain ⟨result, silent, exits⟩ | ⟨s, h, hcalls, result⟩ | ⟨before, wave, after, split, h⟩ :=
    runPlan_cases host client yes screenshots spec.flat
  · obtain ⟨planned, hplanned, -⟩ := spec.requiresYes.mp exits
    exact failFast_of_needsYes result silent (List.ne_nil_of_mem hplanned)
  · exact failFast_of_going h spec.flat unique hcalls result
  · exact failFast_of_halted split h spec.flat unique

/-- Three reads and a step that needs them. -/
def probe : Recipe where
  name := "probe"
  steps := [{ id := "hello", op := .hello }, { id := "rev", op := .revision },
    { id := "keys", op := .keybindings },
    { id := "last", needs := ["hello", "rev", "keys"], op := .hello }]

def probePlan : Plan :=
  let step (id schema : String) (op : Op) (needs : List String) : PlannedStep :=
    { id, op, needs, screenshot := false, effects := [.read], schema := some schema,
      idempotent := true }
  { name := "probe"
    app := none
    steps := [step "hello" "hello" .hello [], step "keys" "keybindings" .keybindings [],
      step "rev" "revision" .revision [], step "last" "hello" .hello ["hello", "rev", "keys"]]
    waves := [["hello", "keys", "rev"], ["last"]]
    effects := [.read]
    requiresYes := false
    fingerprint := "0000000000000000" }

/-- A host that refuses the second line of every call. -/
def refusingHost : Nat → List (List Attempt) := fun _ => [[{
  connect := .ok ()
  setTimeout := .ok ()
  write := fun _ => .complete
  flush := .ok ()
  read := fun i => .line (if i = 1 then .err "2" "no" else .success "1") }]]

theorem runPlan_failFast_probe :
    let run := runPlan refusingHost ⟨"127.0.0.1:7878", 1, false⟩ probePlan false
    FailFast probePlan none run ∧
      run.calls.map ClientCall.steps = [["hello", "keys", "rev"]] ∧
      run.receipt?.map (fun receipt => receipt.steps.map fun entry => (entry.id, entry.ok)) =
        some [("hello", true), ("keys", false), ("rev", true)] ∧
      ¬ ∃ receipt, run.result = some (.ok receipt) := by
  intro run
  have h := runPlan_failFast (fun _ => 0) probe ∅ protocolRegistry probePlan (by decide +kernel)
    refusingHost ⟨"127.0.0.1:7878", 1, false⟩ false none
  have hfailed : ∃ call ∈ run.calls, call.steps ≠ [] ∧ call.failed = true := by decide +kernel
  refine ⟨h, by decide +kernel, by decide +kernel, fun hok => ?_⟩
  obtain ⟨call, hcall, hsteps, hno⟩ := hfailed
  cases hno.symm.trans ((h.ok_iff_answered.mp hok).2 call hcall hsteps)

end GpuiAgent
