import GpuiAgent.Cli.ActShared
import GpuiAgent.Client.Delivery

namespace GpuiAgent

open Framework Tool

namespace Mcp

section Served

open ClientProgram

variable (tools : InstinctTools)

/-- A call of `act`, over whatever the connection does: at most three ops are sent, each right after
the snapshot and the listing that it was decided on, none after one that was not refused as stale;
the answer is the receipt of the accepted op, or reports none. -/
theorem act_guarded (others : Toolbox) (host : Nat → List (List Attempt)) (c : TimedClient)
    (params : Json) (h : (params.get "name").bind Json.asStr = some "act") :
    let toolbox := tools.toolbox others
    let args := (params.get "arguments").getD (.object [])
    let opened := c.setTimeout (timeoutInForce toolbox c params)
    let served := serveCall toolbox host c params
    ∃ calls n, (act tools args).ran (timedAnswer host) (0, opened) =
        ⟨served.1, (n, served.2.1), calls⟩ ∧
      Threaded (timedAnswer host) (0, opened) calls (n, served.2.1) ∧
      ((calls = [] ∧ ∃ err, served.1 = .error err) ∨
        ∃ instruction clause, string args "instruction" = .ok instruction ∧
          (splitSequentialClauses instruction).head? = some clause ∧
          Guarded tools args clause (MAX_STALE_RETRIES + 1) calls served.1) := by
  intro toolbox args opened served
  have hprogram : (callTool toolbox params).program = (act tools args).run := by
    unfold callTool
    rw [h]
    rfl
  have hserved : served = ((act tools args).run).run host 0 opened := by
    unfold served serveCall
    rw [hprogram]
  obtain ⟨houtcome, hclient⟩ := run_eq_converse host (unbatched_act tools args) 0 opened
  let ran := (act tools args).ran (timedAnswer host) (0, opened)
  have hcalls : Threaded (timedAnswer host) (0, opened) ran.calls ran.after :=
    threaded_converse _ _
  refine ⟨ran.calls, ran.after.1, ?_, ?_, ?_⟩
  · rw [hserved, houtcome, hclient]
    rfl
  · rw [hserved, hclient]
    exact hcalls
  · rw [hserved, houtcome]
    exact guarded_act (timedAnswer host) tools args (0, opened)

end Served

/-- A connection on which each call is answered as the todo store answers it. -/
def settingsHost (k : Nat) : List (List Attempt) :=
  match (settingsRun.calls[k]?).map Exchange.result with
  | some (.ok resp) => [[AgentClient.attemptReading (.line resp)]]
  | _ => []

def settingsParams : Json := .object [("arguments", clickSettings), ("name", .string "act")]

/-- A client that is about to serve the call. -/
def settingsClient : TimedClient :=
  (TimedClient.connect "127.0.0.1:7777").setTimeout
    (timeoutInForce (storeTools.toolbox refusing) (.connect "127.0.0.1:7777") settingsParams)

open ClientProgram

/-- The ops of the call, and which of them are accepted. -/
theorem settingsHost_calls :
    (((act storeTools clickSettings).ran (timedAnswer settingsHost)
      (0, settingsClient)).calls.map fun e => (e.op, (accepted e.result).toBool)) =
        [(.snapshot none none none, true), (.keybindings, true),
          (.click "nav-settings" .semantic (some 16297692059321235881), true),
          (.snapshot (some 0) none none, true)] := by
  decide +kernel

/-- The click is sent, and accepted. -/
theorem act_guarded_settings :
    let served := serveCall (storeTools.toolbox refusing) settingsHost
      (.connect "127.0.0.1:7777") settingsParams
    (settingsParams.get "name").bind Json.asStr = some "act" ∧
      ∃ calls n, (act storeTools clickSettings).ran (timedAnswer settingsHost)
          (0, settingsClient) = ⟨served.1, (n, served.2.1), calls⟩ ∧
        Threaded (timedAnswer settingsHost) (0, settingsClient) calls (n, served.2.1) ∧
        ((calls = [] ∧ ∃ err, served.1 = .error err) ∨
          ∃ instruction clause, string clickSettings "instruction" = .ok instruction ∧
            (splitSequentialClauses instruction).head? = some clause ∧
            Guarded storeTools clickSettings clause (MAX_STALE_RETRIES + 1) calls served.1) ∧
        ∃ sent ∈ calls, (accepted sent.result).toBool = true ∧
          sent.op = .click "nav-settings" .semantic (some 16297692059321235881) := by
  unfold settingsClient
  dsimp only
  have hargs : (settingsParams.get "arguments").getD (.object []) = clickSettings := rfl
  have hguarded :=
    act_guarded storeTools refusing settingsHost (.connect "127.0.0.1:7777") settingsParams rfl
  dsimp only at hguarded
  simp only [hargs] at hguarded
  obtain ⟨calls, n, hran, hthreaded, hguarded⟩ := hguarded
  have hcalls := settingsHost_calls
  unfold settingsClient at hcalls
  rw [hran] at hcalls
  have hclick : (.click "nav-settings" .semantic (some 16297692059321235881), true) ∈
      calls.map fun e => (e.op, (accepted e.result).toBool) := by
    rw [hcalls]
    simp
  obtain ⟨sent, hsent, hop⟩ := List.mem_map.mp hclick
  obtain ⟨hop, haccepted⟩ := Prod.mk.inj hop
  exact ⟨rfl, calls, n, hran, hthreaded, hguarded, sent, hsent, haccepted, hop⟩

end Mcp

end GpuiAgent
