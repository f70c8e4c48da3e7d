import GpuiAgent.Client.Pipelined
import GpuiAgent.Framework.Result
import GpuiAgent.Recipe.Run

namespace GpuiAgent

open Framework

/-- The receipt of a step that got a reply, without a picture. -/
def PlannedStep.entry (step : PlannedStep) (resp : Response) : StepReceipt :=
  ⟨step.id, resp.ok, resp.error, resp.result, none⟩

/-- The error of a step that was refused. -/
def PlannedStep.refusal (step : PlannedStep) (resp : Response) : String × String :=
  (step.id, resp.error.getD "request failed")

/-- What comes of the steps of a plan one by one: the receipts up to the first step that the host
refuses, that step with its error, and the state of the session. -/
structure OneByOne (σ : Type) where
  entries : List StepReceipt := []
  failure : Option (String × String) := none
  state : SessionState σ

namespace HostConnection

variable {σ : Type} (conn : HostConnection σ)

/-- Each step on its own line, the next one when the client has read an ok. -/
def oneByOne (state : SessionState σ) (id : Nat) : List PlannedStep → OneByOne σ
  | [] => { state }
  | step :: steps => match conn.serve state (conn.line ⟨id, step.op, true⟩) with
    | (some reply, some next) =>
      let resp := conn.codec.received reply
      if resp.ok then
        let rest := oneByOne next (id + 1) steps
        { rest with entries := step.entry resp :: rest.entries }
      else ⟨[step.entry resp], some (step.refusal resp), next⟩
    -- the host has closed the session
    | _ => { state, failure := some (step.id, "connection closed") }

variable {conn}

/-- Steps after a failure are left alone, and those after the others follow on. -/
theorem oneByOne_append (steps more : List PlannedStep) : ∀ (state : SessionState σ) (id : Nat),
    let first := conn.oneByOne state id steps
    let rest := conn.oneByOne first.state (id + steps.length) more
    (first.failure.isSome = true → conn.oneByOne state id (steps ++ more) = first) ∧
    (first.failure = none → conn.oneByOne state id (steps ++ more) =
      { rest with entries := first.entries ++ rest.entries }) := by
  induction steps with
  | nil => exact fun _ _ => ⟨fun h => absurd h (by simp [oneByOne]), fun _ => rfl⟩
  | cons step steps ih =>
    intro state id
    rw [List.cons_append, oneByOne, oneByOne]
    rcases conn.serve state (conn.line ⟨id, step.op, true⟩) with ⟨_ | reply, _ | next⟩
    · exact ⟨fun _ => rfl, fun h => absurd h (by simp)⟩
    · exact ⟨fun _ => rfl, fun h => absurd h (by simp)⟩
    · exact ⟨fun _ => rfl, fun h => absurd h (by simp)⟩
    · dsimp only
      cases hok : (conn.codec.received reply).ok with
      | false => exact ⟨fun _ => rfl, fun h => absurd h (by simp)⟩
      | true =>
        obtain ⟨hfailed, hdone⟩ := ih next (id + 1)
        simp only [if_true]
        refine ⟨fun h => by rw [hfailed h], fun h => ?_⟩
        rw [hdone h, List.length_cons, Nat.add_assoc, Nat.add_comm 1]
        rfl

/-- The replies to all the lines hold the steps one by one: as far as the first refusal the
receipts are the same, and it is the same refusal. -/
theorem oneByOne_serveLog (steps : List PlannedStep) : ∀ {state final : SessionState σ} {id : Nat},
    (conn.serveLog (some state) (written id (steps.map PlannedStep.op))).2 = some final →
    let answers := steps.zip ((conn.serveLog (some state)
      (written id (steps.map PlannedStep.op))).1.map conn.codec.received)
    let plain := conn.oneByOne state id steps
    plain.failure = (answers.find? fun answer => !answer.2.ok).map
      (fun answer => answer.1.refusal answer.2) ∧
    (∃ later, answers.map (fun answer => answer.1.entry answer.2) = plain.entries ++ later ∧
      (plain.failure.isSome = true → later.length < steps.length)) ∧
    (plain.failure = none → plain.entries = answers.map (fun answer => answer.1.entry answer.2) ∧
      plain.state = final) := by
  induction steps with
  | nil =>
    intro state final id h
    obtain rfl := Option.some.inj h
    exact ⟨rfl, ⟨[], rfl, fun h => absurd h (by simp [oneByOne])⟩, fun _ => ⟨rfl, rfl⟩⟩
  | cons step steps ih =>
    intro state final id h
    obtain ⟨resp, hresp⟩ := conn.serve_line_reply state ⟨id, step.op, true⟩
    rcases hserve : conn.serve state (conn.line ⟨id, step.op, true⟩) with ⟨reply, next⟩
    rw [hserve] at hresp
    obtain rfl : reply = some resp := hresp
    have hlog : conn.serveLog (some state) (written id ((step :: steps).map PlannedStep.op)) =
        (resp :: (conn.serveLog next (written (id + 1) (steps.map PlannedStep.op))).1,
          (conn.serveLog next (written (id + 1) (steps.map PlannedStep.op))).2) := by
      unfold HostConnection.serveLog
      rw [List.map_cons, written, List.map_cons, serveAll_cons, hserve]
      rfl
    rw [hlog] at h ⊢
    cases next with
    | none => simp [HostConnection.serveLog] at h
    | some next =>
      obtain ⟨hfailure, ⟨later, hlater, hshort⟩, hdone⟩ := ih h
      simp only [oneByOne, hserve, List.zip_cons_cons, List.find?_cons, List.map_cons]
      cases hok : (conn.codec.received resp).ok with
      | false =>
        refine ⟨rfl, ⟨_, rfl, fun _ => ?_⟩, fun h => absurd h (by simp)⟩
        rw [List.length_map, List.length_zip, List.length_cons]
        omega
      | true =>
        simp only [Bool.not_true, if_true]
        refine ⟨hfailure, ⟨later, ?_, fun hfail => ?_⟩, fun hnone => ?_⟩
        · rw [List.cons_append, hlater]
        · rw [List.length_cons]
          exact Nat.lt_succ_of_lt (hshort hfail)
        · obtain ⟨hentries, hstate⟩ := hdone hnone
          exact ⟨by rw [hentries], hstate⟩

end HostConnection

/-- The steps that each call of the client carries in a run without pictures. -/
def callUnits (waves : List (List PlannedStep)) : List (List PlannedStep) :=
  waves.flatMap fun wave =>
    if waveCanPipeline wave none then [wave] else wave.map fun step => [step]

theorem callUnits_flatten (waves : List (List PlannedStep)) :
    (callUnits waves).flatten = waves.flatten := by
  induction waves with
  | nil => rfl
  | cons wave waves ih =>
    unfold callUnits at ih ⊢
    rw [List.flatMap_cons, List.flatten_append, ih, List.flatten_cons]
    congr 1
    split_ifs
    · simp
    · rw [← List.flatMap_def]
      exact List.flatMap_singleton' wave

section Carried

variable {σ : Type} {conn : HostConnection σ}

/-- The pieces of a call leave the session where their lines do. -/
theorem Carried.serveLog {state final : SessionState σ} {id : Nat} {pieces : List (List Op)}
    {script : List (List Attempt)} (h : Carried conn state id pieces script final) :
    (conn.serveLog (some state) (written id pieces.flatten)).2 = some final := by
  induction h with
  | nil => rfl
  | cons ha _ ih => rw [List.flatten_cons, written_append, serveLog_append, ha.spec.1, ih]

end Carried

/-- Each call of a run is sent on one connection on which nothing fails. -/
inductive CallsCarried {σ : Type} (conn : HostConnection σ) :
    SessionState σ → Nat → List (List PlannedStep) → List (List (List Attempt)) →
      SessionState σ → Prop where
  | nil {state : SessionState σ} {id : Nat} {scripts : List (List (List Attempt))} :
    CallsCarried conn state id [] scripts state
  | cons {state next final : SessionState σ} {id : Nat} {unit : List PlannedStep}
      {units : List (List PlannedStep)} {script : List (List Attempt)}
      {scripts : List (List (List Attempt))} :
    Carried conn state id (chunks MAX_MAILBOX_DEPTH (unit.map PlannedStep.op)) script next →
    CallsCarried conn next (id + unit.length) units scripts final →
    CallsCarried conn state id (unit :: units) (script :: scripts) final

/-- A connection that stays open over all the steps can carry the calls. -/
theorem exists_callsCarried {σ : Type} {conn : HostConnection σ} (units : List (List PlannedStep)) :
    ∀ {state : SessionState σ} {id : Nat},
      conn.StaysOpen state (written id (units.flatten.map PlannedStep.op)) →
        ∃ scripts final, CallsCarried conn state id units scripts final := by
  induction units with
  | nil => exact fun {state} _ _ => ⟨[], state, .nil⟩
  | cons unit units ih =>
    intro state id h
    rw [List.flatten_cons, List.map_append, written_append] at h
    unfold HostConnection.StaysOpen at h
    rw [serveLog_append] at h
    have hunit : conn.StaysOpen state (written id (unit.map PlannedStep.op)) := by
      unfold HostConnection.StaysOpen
      cases hstate : (conn.serveLog (some state) (written id (unit.map PlannedStep.op))).2 with
      | none =>
        rw [hstate] at h
        simp [HostConnection.serveLog] at h
      | some next => rfl
    have hflat : (chunks MAX_MAILBOX_DEPTH (unit.map PlannedStep.op)).flatten =
        unit.map PlannedStep.op := chunks_flatten (by decide) _
    obtain ⟨script, next, hcarried⟩ := exists_carried _ (hflat.symm ▸ hunit)
    have hnext := hcarried.serveLog
    rw [hflat] at hnext
    rw [hnext, List.length_map] at h
    obtain ⟨scripts, final, hrest⟩ := ih h
    exact ⟨script :: scripts, final, .cons hcarried hrest⟩

/-- The run that a failure among the steps `unit` has ended: the receipts up to the failure, and
those of later steps of the same pipeline. -/
structure FailedIn (plan : Plan) (unit : List PlannedStep) (failure : String × String)
    (entries : List StepReceipt) (run : PlanRun) : Prop where
  named : failure.1 ∈ unit.map PlannedStep.id
  result : ∃ later, run.result = some (.error (.step failure.1 failure.2
      ⟨false, plan.name, plan.fingerprint, true, entries ++ later, []⟩)) ∧
    (∀ entry ∈ later, entry.id ∈ unit.map PlannedStep.id) ∧
    (later ≠ [] → waveCanPipeline unit none = true)

namespace Execution

variable {host : Nat → List (List Attempt)}

/-- One call of a run without pictures. -/
def runUnit (host : Nat → List (List Attempt)) (s : Execution) (unit : List PlannedStep) :
    Except PlanRun Execution :=
  if waveCanPipeline unit none then s.runPipeline host unit else unit.foldlM (runStep host none) s

theorem runUnit_singleton (s : Execution) (step : PlannedStep) :
    s.runUnit host [step] = s.runStep host none step := by
  have hpipeline : waveCanPipeline [step] none = false := by simp [waveCanPipeline]
  rw [runUnit, hpipeline, if_neg Bool.false_ne_true, List.foldlM_cons]
  simp only [List.foldlM_nil, bind_pure]

/-- The waves of a run are its calls in turn. -/
theorem foldlM_runWave {plan : Plan} (ids : List (List String)) :
    ∀ {waves : List (List PlannedStep)} (s : Execution), ids.mapM plan.waveSteps = some waves →
      ids.foldlM (runWave host plan none) s = (callUnits waves).foldlM (runUnit host) s := by
  induction ids with
  | nil =>
    intro waves s h
    obtain rfl := Option.some.inj h
    rfl
  | cons wave ids ih =>
    intro waves s h
    rw [List.mapM_cons] at h
    obtain ⟨steps, hsteps, h⟩ := Option.bind_eq_some_iff.mp h
    obtain ⟨rest, hrest, h⟩ := Option.bind_eq_some_iff.mp h
    obtain rfl := Option.some.inj h
    have hwave : runWave host plan none s wave =
        (callUnits [steps]).foldlM (runUnit host) s := by
      unfold runWave callUnits
      rw [hsteps, List.flatMap_singleton]
      dsimp only
      split_ifs with hpipeline
      · rw [List.foldlM_cons, runUnit, if_pos hpipeline]
        simp only [List.foldlM_nil, bind_pure]
      · rw [List.foldlM_map]
        simp only [runUnit_singleton]
    have hunits : callUnits (steps :: rest) = callUnits [steps] ++ callUnits rest := by
      simp [callUnits]
    rw [List.foldlM_cons, hunits, List.foldlM_append, hwave]
    congr 1
    funext t
    exact ih t hrest

/-- A run under way: the steps `done` have been answered, in as many calls as `calls`. -/
structure Answered (plan : Plan) (client : AgentClient) (calls : Nat) (done : List PlannedStep)
    (entries : List StepReceipt) (s : Execution) : Prop where
  client : s.client = client.answered (done.map PlannedStep.op)
  calls : s.calls.length = calls
  receipt : s.receipt = ⟨true, plan.name, plan.fingerprint, s.receipt.sessionReused, entries, []⟩

/-- Receipts without pictures go behind those entered before. -/
theorem foldl_push_entries (answers : List (PlannedStep × Response)) : ∀ s : Execution,
    answers.foldl (fun s answer => s.push (answer.1.entry answer.2)) s =
      { s with receipt := { s.receipt with
        steps := s.receipt.steps ++ answers.map (fun answer => answer.1.entry answer.2) } } := by
  induction answers with
  | nil =>
    intro s
    rw [List.map_nil, List.append_nil]
    rfl
  | cons answer answers ih =>
    intro s
    rw [List.foldl_cons, ih]
    simp [push, PlannedStep.entry]

section Call

variable {σ : Type} {conn : HostConnection σ} {state next : SessionState σ} {s t : Execution}
  {plan : Plan} {client : AgentClient} {calls : Nat} {done unit : List PlannedStep}
  {entries : List StepReceipt}

/-- The run after a call that got its replies. -/
theorem Answered.call (h : Answered plan client calls done entries s)
    (hclient : t.client = s.client.answered (unit.map PlannedStep.op))
    (hcalls : t.calls.length = calls + 1) (added : List StepReceipt)
    (hreceipt : t.receipt = { s.receipt with
      sessionReused := t.client.session
      steps := s.receipt.steps ++ added }) :
    Answered plan client (calls + 1) (done ++ unit) (entries ++ added) t where
  client := by rw [hclient, h.client, List.map_append, AgentClient.answered_append]
  calls := hcalls
  receipt := by rw [hreceipt, h.receipt]

/-- A call that gets its replies enters them, and ends the run at the first that says no. -/
theorem runUnit_answers (h : Answered plan client calls done entries s)
    (hunit : (∃ step, unit = [step]) ∨ waveCanPipeline unit none = true)
    {script : List (List Attempt)} (hhost : host calls = script)
    (carried : Carried conn state s.client.nextId
      (chunks MAX_MAILBOX_DEPTH (unit.map PlannedStep.op)) script next)
    (hread : ∀ r ∈ (conn.serveLog (some state) (written s.client.nextId
      (unit.map PlannedStep.op))).1, conn.codec.Readable r) :
    let answers := unit.zip ((conn.serveLog (some state) (written s.client.nextId
      (unit.map PlannedStep.op))).1.map conn.codec.received)
    ∃ t, Answered plan client (calls + 1) (done ++ unit)
        (entries ++ answers.map fun answer => answer.1.entry answer.2) t ∧
      t.receipt.sessionReused = true ∧
      s.runUnit host unit = match answers.find? fun answer => !answer.2.ok with
        | some answer => .error (t.fail answer.1.id (answer.2.error.getD "request failed"))
        | none => .ok t := by
  rcases hunit with ⟨step, rfl⟩ | hpipeline
  · -- a step of its own is one round trip
    have hpiece : chunks MAX_MAILBOX_DEPTH ([step].map PlannedStep.op) = [[step.op]] :=
      chunks_of_length_le (List.cons_ne_nil _ _) (by simp [MAX_MAILBOX_DEPTH])
    rw [hpiece] at carried
    cases carried with
    | @cons _ mid _ _ _ _ a later script ha hrest =>
      obtain ⟨resp, hresp, hcall⟩ := s.client.rpcOp_reliable step.op later ha hread
      have hlog : (conn.serveLog (some state) (written s.client.nextId
          ([step].map PlannedStep.op))).1 = [resp] := hresp
      rw [hlog, List.map_singleton]
      generalize conn.codec.received resp = resp at hcall ⊢
      let u : Execution := { s with
        client := s.client.answered [step.op]
        calls := s.calls ++ [⟨[step.id], .ok [resp], written s.client.nextId [step.op]⟩]
        shotIndex := s.shotIndex + 1 }
      have hsent : rpcOp host { s with shotIndex := s.shotIndex + 1 } [step.id] step.op =
          (.ok resp, u) := by
        unfold rpcOp
        dsimp only
        rw [h.calls, hhost, List.headD_cons, hcall]
        rfl
      have hsession : u.client.session = true := by simp [u, AgentClient.answered]
      have hreceipt : (u.noteSession.push (step.entry resp)).receipt = { s.receipt with
          sessionReused := u.client.session
          steps := s.receipt.steps ++ [step.entry resp] } := by
        simp [u, push, noteSession, PlannedStep.entry]
      rw [runUnit_singleton, runStep]
      dsimp only
      rw [hsent]
      refine ⟨u.noteSession.push (step.entry resp), h.call rfl ?_ [step.entry resp] hreceipt,
        ?_, ?_⟩
      · simp [u, push, noteSession, h.calls]
      · rw [hreceipt, hsession]
      · cases hok : resp.ok <;> simp [captureScreenshot, hok, PlannedStep.entry]
  · -- a wave in one pipeline
    have hflat : (chunks MAX_MAILBOX_DEPTH (unit.map PlannedStep.op)).flatten =
        unit.map PlannedStep.op := chunks_flatten (by decide) _
    obtain ⟨-, hcall⟩ := AgentClient.rpcPipelineChunks_carried _
      (fun _ => ne_nil_of_mem_chunks (by decide)) carried (hflat.symm ▸ hread)
    rw [hflat, ← AgentClient.rpcPipeline_eq_chunks] at hcall
    have hne : unit ≠ [] := by
      rintro rfl
      simp [waveCanPipeline] at hpipeline
    generalize (conn.serveLog (some state) (written s.client.nextId
      (unit.map PlannedStep.op))).1.map conn.codec.received = resps at hcall ⊢
    let u : Execution := { s with
      client := s.client.answered (unit.map PlannedStep.op)
      calls := s.calls ++ [⟨unit.map PlannedStep.id, .ok resps,
        written s.client.nextId (unit.map PlannedStep.op)⟩] }
    have hsent : s.called (unit.map PlannedStep.id)
        (s.client.rpcPipeline (unit.map PlannedStep.op) (host s.calls.length)) id = u := by
      unfold called
      rw [h.calls, hhost, hcall]
      rfl
    have hsession : u.client.session = true := by
      obtain ⟨step, steps, rfl⟩ := List.exists_cons_of_ne_nil hne
      simp [u, AgentClient.answered]
    dsimp only
    refine ⟨{ u.noteSession with receipt := { u.noteSession.receipt with
        steps := u.noteSession.receipt.steps ++
          (unit.zip resps).map (fun answer => answer.1.entry answer.2) } },
      h.call rfl ?_ _ rfl, hsession, ?_⟩
    · simp [u, noteSession, h.calls]
    · rw [runUnit, if_pos hpipeline, runPipeline]
      dsimp only
      rw [hsent, h.calls, hhost, hcall]
      dsimp only
      rw [← foldl_push_entries]
      cases (unit.zip resps).find? fun answer => !answer.2.ok with
      | some answer => rfl
      | none => rfl

/-- A call comes to what its steps come to one by one. -/
theorem runUnit_oneByOne (h : Answered plan client calls done entries s)
    (hunit : (∃ step, unit = [step]) ∨ waveCanPipeline unit none = true)
    {script : List (List Attempt)} (hhost : host calls = script)
    (carried : Carried conn state s.client.nextId
      (chunks MAX_MAILBOX_DEPTH (unit.map PlannedStep.op)) script next)
    (hread : ∀ r ∈ (conn.serveLog (some state) (written s.client.nextId
      (unit.map PlannedStep.op))).1, conn.codec.Readable r) :
    let plain := conn.oneByOne state s.client.nextId unit
    (plain.failure = none → ∃ t, s.runUnit host unit = .ok t ∧ plain.state = next ∧
      Answered plan client (calls + 1) (done ++ unit) (entries ++ plain.entries) t) ∧
    ∀ failure, plain.failure = some failure → ∃ run, s.runUnit host unit = .error run ∧
      FailedIn plan unit failure (entries ++ plain.entries) run := by
  have hlog := carried.serveLog
  rw [chunks_flatten (by decide)] at hlog
  obtain ⟨hfailure, ⟨later, hlater, hshort⟩, hdone⟩ := HostConnection.oneByOne_serveLog unit hlog
  obtain ⟨t, ht, hreused, hrun⟩ := runUnit_answers h hunit hhost carried hread
  have hmem : ∀ answer ∈ unit.zip ((conn.serveLog (some state) (written s.client.nextId
      (unit.map PlannedStep.op))).1.map conn.codec.received),
      answer.1.id ∈ unit.map PlannedStep.id :=
    fun answer hanswer => List.mem_map_of_mem (List.of_mem_zip hanswer).1
  dsimp only at hfailure hlater hdone hrun ht ⊢
  generalize conn.oneByOne state s.client.nextId unit = plain at *
  generalize unit.zip ((conn.serveLog (some state) (written s.client.nextId
    (unit.map PlannedStep.op))).1.map conn.codec.received) = answers at *
  cases hfind : answers.find? fun answer => !answer.2.ok with
  | none =>
    rw [hfind] at hfailure hrun
    obtain ⟨hentries, hstate⟩ := hdone hfailure
    refine ⟨fun _ => ⟨t, hrun, hstate, hentries ▸ ht⟩, fun failure h => ?_⟩
    rw [hfailure] at h
    cases h
  | some answer =>
    rw [hfind] at hfailure hrun
    refine ⟨fun h => absurd (hfailure.symm.trans h) (by simp), fun failure h => ?_⟩
    obtain rfl : answer.1.refusal answer.2 = failure := Option.some.inj (hfailure.symm.trans h)
    refine ⟨_, hrun, hmem answer (List.mem_of_find?_eq_some hfind), later, ?_, ?_, ?_⟩
    · rw [fail, ht.receipt, hreused, hlater, List.append_assoc]
      rfl
    · intro entry hentry
      have hin : entry ∈ answers.map fun answer => answer.1.entry answer.2 := by
        rw [hlater]
        exact List.mem_append_right _ hentry
      obtain ⟨other, hother, rfl⟩ := List.mem_map.mp hin
      exact hmem other hother
    · intro hne
      rcases hunit with ⟨step, rfl⟩ | hpipeline
      · have hlt := hshort (by rw [hfailure]; rfl)
        rw [List.length_singleton, Nat.lt_one_iff, List.length_eq_zero_iff] at hlt
        exact absurd hlt hne
      · exact hpipeline

/-- The calls of a run come to what their steps come to one by one. -/
theorem foldlM_runUnit (units : List (List PlannedStep)) :
    ∀ {state final : SessionState σ} {s : Execution} {calls : Nat} {done : List PlannedStep}
      {entries : List StepReceipt} {scripts : List (List (List Attempt))},
    Answered plan client calls done entries s →
    (∀ unit ∈ units, (∃ step, unit = [step]) ∨ waveCanPipeline unit none = true) →
    CallsCarried conn state s.client.nextId units scripts final →
    (∀ n script, scripts[n]? = some script → host (calls + n) = script) →
    (∀ r ∈ (conn.serveLog (some state) (written s.client.nextId
      (units.flatten.map PlannedStep.op))).1, conn.codec.Readable r) →
    let plain := conn.oneByOne state s.client.nextId units.flatten
    (plain.failure = none → ∃ t, units.foldlM (runUnit host) s = .ok t ∧ plain.state = final ∧
      Answered plan client (calls + units.length) (done ++ units.flatten)
        (entries ++ plain.entries) t) ∧
    ∀ failure, plain.failure = some failure → ∃ unit ∈ units, ∃ run,
      units.foldlM (runUnit host) s = .error run ∧
        FailedIn plan unit failure (entries ++ plain.entries) run := by
  induction units with
  | nil =>
    intro state final s calls done entries scripts h _ hcarried _ _
    cases hcarried
    refine ⟨fun _ => ⟨s, rfl, rfl, by simpa [HostConnection.oneByOne] using h⟩, fun failure h => ?_⟩
    cases h
  | cons unit units ih =>
    intro state final s calls done entries scripts h hunits hcarried hhost hread
    obtain ⟨hunit, hrest⟩ := List.forall_mem_cons.mp hunits
    cases hcarried with
    | @cons _ next _ _ _ _ script scripts hscript hmore =>
      have hlog := hscript.serveLog
      rw [chunks_flatten (by decide)] at hlog
      rw [List.flatten_cons, List.map_append, written_append, serveLog_append, hlog] at hread
      obtain ⟨hdone, hfailed⟩ := runUnit_oneByOne h hunit (hhost 0 script rfl) hscript
        fun r hr => hread r (List.mem_append_left _ hr)
      obtain ⟨hstop, hgo⟩ := conn.oneByOne_append unit units.flatten state s.client.nextId
      rw [List.flatten_cons, List.foldlM_cons]
      dsimp only at hdone hfailed hstop hgo ⊢
      cases hfail : (conn.oneByOne state s.client.nextId unit).failure with
      | some failure =>
        obtain ⟨run, hrun, hunitFailed⟩ := hfailed failure hfail
        rw [hstop (by rw [hfail]; rfl), hrun]
        refine ⟨fun h => absurd (hfail.symm.trans h) (by simp), fun failure' h => ?_⟩
        obtain rfl := Option.some.inj (hfail.symm.trans h)
        exact ⟨unit, List.mem_cons_self, run, rfl, hunitFailed⟩
      | none =>
        obtain ⟨t, ht, hstate, hanswered⟩ := hdone hfail
        rw [hgo hfail, ht, hstate]
        have hid : t.client.nextId = s.client.nextId + unit.length := by
          rw [hanswered.client, h.client]
          simp [AgentClient.answered, Nat.add_assoc]
        rw [List.length_map] at hread
        obtain ⟨hlater, hlaterFailed⟩ := @ih next final t (calls + 1) (done ++ unit) _ scripts
          hanswered hrest (hid ▸ hmore)
          (fun n script hn => by rw [Nat.add_assoc, Nat.add_comm 1, hhost _ _ hn])
          (by rw [hid]; exact fun r hr => hread r (List.mem_append_right _ hr))
        rw [hid] at hlater hlaterFailed
        refine ⟨fun hnone => ?_, fun failure hsome => ?_⟩
        · obtain ⟨u, hu, hfinal, hall⟩ := hlater hnone
          refine ⟨u, hu, hfinal, ?_⟩
          rwa [List.append_assoc, List.append_assoc, Nat.add_assoc, Nat.add_comm 1] at hall
        · obtain ⟨other, hother, run, hrun, hunitFailed⟩ := hlaterFailed failure hsome
          refine ⟨other, List.mem_cons_of_mem _ hother, run, hrun, ?_⟩
          rwa [List.append_assoc] at hunitFailed

end Call

end Execution

/-- Whatever the order in which host and client take their steps, a run of the plan comes to what
its steps come to one by one. Behind a failure the receipts go on with steps of the same pipeline
only. -/
def RunsOneByOne {σ : Type} (conn : HostConnection σ) (state : SessionState σ)
    (client : AgentClient) (plan : Plan) (yes : Bool) (waves : List (List PlannedStep)) : Prop :=
  ∀ scripts final host, CallsCarried conn state client.nextId (callUnits waves) scripts final →
    (∀ n script, scripts[n]? = some script → host n = script) →
    let plain := conn.oneByOne state client.nextId waves.flatten
    let run := runPlan host client plan yes
    (plain.failure = none → plain.state = final ∧
      run.client = client.answered (waves.flatten.map PlannedStep.op) ∧
      run.result = some (.ok ⟨true, plan.name, plan.fingerprint,
        client.session || !waves.flatten.isEmpty, plain.entries, []⟩)) ∧
    ∀ failure, plain.failure = some failure →
      ∃ unit ∈ callUnits waves, FailedIn plan unit failure plain.entries run

/-- Pipelines and all, a plan that may run does what its steps do one by one, over a connection that
no step closes and whose replies the client can read. -/
theorem runPlan_oneByOne {σ : Type} (conn : HostConnection σ) (state : SessionState σ)
    (client : AgentClient) {plan : Plan} {yes : Bool} {waves : List (List PlannedStep)}
    (planned : plan.waves.mapM plan.waveSteps = some waves)
    (allowed : (plan.requiresYes && !yes) = false)
    (hopen : conn.StaysOpen state
      (written client.nextId (waves.flatten.map PlannedStep.op)))
    (hread : ∀ resp ∈ (conn.serveLog (some state)
      (written client.nextId (waves.flatten.map PlannedStep.op))).1, conn.codec.Readable resp) :
    (∃ scripts final, CallsCarried conn state client.nextId (callUnits waves) scripts final) ∧
      RunsOneByOne conn state client plan yes waves := by
  have hflat := callUnits_flatten waves
  refine ⟨exists_callsCarried _ (hflat.symm ▸ hopen), ?_⟩
  intro scripts final host hcarried hhost
  have hunits : ∀ unit ∈ callUnits waves,
      (∃ step, unit = [step]) ∨ waveCanPipeline unit none = true := by
    intro unit hunit
    obtain ⟨wave, -, hunit⟩ := List.mem_flatMap.mp hunit
    split_ifs at hunit with hpipeline
    · obtain rfl := List.mem_singleton.mp hunit
      exact .inr hpipeline
    · obtain ⟨step, -, rfl⟩ := List.mem_map.mp hunit
      exact .inl ⟨step, rfl⟩
  have hstart : Execution.Answered plan client 0 [] [] (Execution.start client plan) :=
    ⟨by simp [Execution.start, AgentClient.answered], rfl, rfl⟩
  have hcalls : ∀ n script, scripts[n]? = some script → host (0 + n) = script :=
    fun n script hn => by rw [Nat.zero_add, hhost n script hn]
  obtain ⟨hdone, hfailed⟩ := Execution.foldlM_runUnit (callUnits waves) hstart hunits hcarried
    hcalls (hflat.symm ▸ hread)
  have hnext : (Execution.start client plan).client.nextId = client.nextId := rfl
  rw [hflat, hnext] at hdone hfailed
  dsimp only
  unfold runPlan runPlanWithScreenshots
  rw [allowed, if_neg Bool.false_ne_true, Execution.foldlM_runWave plan.waves _ planned]
  refine ⟨fun h => ?_, fun failure h => ?_⟩
  · obtain ⟨t, ht, hstate, hanswered⟩ := hdone h
    rw [ht]
    refine ⟨hstate, ?_, ?_⟩
    · simpa using hanswered.client
    · have hsession : t.client.session = (client.session || !waves.flatten.isEmpty) := by
        rw [hanswered.client, List.nil_append, AgentClient.answered, List.isEmpty_map]
      simp only [Execution.noteSession]
      rw [hanswered.receipt, hsession]
      rfl
  · obtain ⟨unit, hunit, run, hrun, hunitFailed⟩ := hfailed failure h
    rw [hrun]
    exact ⟨unit, hunit, by simpa using hunitFailed⟩

open AgentClient in
/-- Two steps in one pipeline, the second of which is refused. -/
def twoClicks : List PlannedStep :=
  [⟨"add", click "todo-add", [], false, [.read], none, true⟩,
    ⟨"list", click "todo-list", [], false, [.read], none, true⟩]

def twoClicksPlan : Plan :=
  ⟨"two-clicks", none, twoClicks, [["add", "list"]], [.read], false, "f"⟩

open AgentClient in
theorem runPlan_oneByOne_twoClicks :
    (∃ scripts final, CallsCarried (clickConn "not a button") (0, 0, {}) newClient.nextId
      (callUnits [twoClicks]) scripts final) ∧
    RunsOneByOne (clickConn "not a button") (0, 0, {}) newClient twoClicksPlan false
      [twoClicks] := by
  have hops : [twoClicks].flatten.map PlannedStep.op = [click "todo-add", click "todo-list"] := rfl
  refine runPlan_oneByOne (clickConn "not a button") (0, 0, {}) newClient (by decide +kernel) rfl
    ?_ ?_
  · rw [hops]
    exact staysOpen_clicks _
  · have hreplies : ((clickConn "not a button").serveLog (some (0, 0, {}))
        (written newClient.nextId [click "todo-add", click "todo-list"])).1 =
          [.success "1", .err "2" "not a button"] := congrArg Prod.fst (serveLog_clicks _)
    rw [hops, hreplies]
    exact List.forall_mem_cons.mpr
      ⟨⟨_, replyOutcome_success⟩, List.forall_mem_singleton.mpr ⟨_, replyOutcome_refusal⟩⟩

end GpuiAgent
