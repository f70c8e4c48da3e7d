import GpuiAgent.Cli.ActGuarded
import GpuiAgent.Host.FingerprintGate
import GpuiAgent.Server.SessionAuth
import GpuiAgent.Todo.Store

namespace GpuiAgent

open Framework ClientProgram Tool

/-- A host that one client talks to while other connections change it: before the `k`-th request of
the client they do `others k`. -/
structure SharedHost (σ : Type) where
  env : Env
  host : AgentHost σ
  token : Option String
  nonce : Option (List UInt8)
  others : Nat → σ → σ
  polls : Nat → Nat
  request : Nat → Op → Request
  request_op : ∀ k op, (request k op).op = op

namespace SharedHost

variable {σ : Type} (shared : SharedHost σ)

/-- The state of the host when it serves the next request of the client. -/
def stateAt (place : Nat × σ × TreeCache) : σ := shared.others place.1 place.2.1

/-- The tree that a gated op is checked against. -/
def treeAt (place : Nat × σ × TreeCache) : UiTree :=
  (place.2.2.snapshot shared.host (shared.stateAt place)).1

def answer (place : Nat × σ × TreeCache) (op : Op) :
    Except String Response × Nat × σ × TreeCache :=
  let served := serveHost shared.env shared.token shared.nonce shared.host shared.others
    shared.polls place.2 place.1 (shared.request place.1 op)
  (.ok served.1, place.1 + 1, served.2)

variable {shared}

/-- A gated op that is accepted found its target as expected, and went to the host in that state. -/
theorem answer_gated {place : Nat × σ × TreeCache} {op : Op} {resp : Response} {target : String}
    {fp : UInt64} (hgate : op.fingerprintGate = some (target, fp))
    (h : accepted (shared.answer place op).1 = .ok resp) :
    (shared.treeAt place).fingerprintOf target = some fp ∧
      (shared.answer place op).2.2.1 = (shared.host.dispatch (shared.stateAt place) op).2 := by
  obtain ⟨k, s, cache⟩ := place
  have hop := shared.request_op k op
  unfold answer serveHost at h ⊢
  dsimp only at h ⊢
  cases hauth : authorizeRequest shared.env (shared.request k op) shared.token shared.nonce with
  | error refused =>
    obtain ⟨error, rfl⟩ := authorizeRequest_refused hauth
    have hrefused : handleRequestCached shared.env shared.host (shared.polls k)
        (shared.others k s) cache (shared.request k op) shared.token shared.nonce =
        (.err (shared.request k op).id error, shared.others k s, cache) := by
      rw [handleRequestCached, hauth]
    -- the reply of a refused request is not `ok`
    rw [hrefused] at h
    cases h
  | ok _ =>
    have hcheck := handleRequestCached_of_gate shared.host (shared.polls k) (shared.others k s)
      cache hauth (by rw [hop]; exact hgate)
    rw [hcheck] at h ⊢
    cases hrefusal : fingerprintRefusal (cache.snapshot shared.host (shared.others k s)).1 target fp
      with
    | some error =>
      rw [hrefusal] at h
      cases h
    | none =>
      dsimp only
      rw [hop]
      exact ⟨(fingerprintRefusal_eq_none _).mp hrefusal, rfl⟩

end SharedHost

namespace Mcp

section Shared

variable {σ : Type} (tools : InstinctTools) (args : Json) (shared : SharedHost σ)

/-- Whatever other connections do between its calls, an op of `act` that the host accepts on a node
finds the node as it was in the snapshot on which the op was decided. -/
theorem act_hits_what_it_saw (start : Nat × σ × TreeCache) :
    let ran := (act tools args).ran shared.answer start
    ∀ earlier sent rest, ran.calls = earlier ++ sent :: rest → sent.op.reads = false →
      ∀ resp, accepted sent.result = .ok resp →
      ∃ (clause : String) (aim : Aim) (seen : List (Exchange (Nat × σ × TreeCache)))
        (snap listing : Exchange (Nat × σ × TreeCache)),
        earlier = seen ++ [snap, listing] ∧
        aim.Behind tools args clause snap listing sent.op ∧
        (aim.decision.kind.nodeBound = true → ∃ tree row, aim.snap.tree = some tree ∧
          row ∈ viableNodes none true tree.nodes ∧
          sent.op.fingerprintGate =
            some (row.2.id, UiNode.fingerprint row.2 (row.1.map (·.id))) ∧
          (shared.treeAt sent.before).fingerprintOf row.2.id =
            some (UiNode.fingerprint row.2 (row.1.map (·.id))) ∧
          (shared.answer sent.before sent.op).2.2.1 =
            (shared.host.dispatch (shared.stateAt sent.before) sent.op).2) := by
  intro ran earlier sent rest hsplit hdispatch resp hresp
  rcases guarded_act shared.answer tools args start with
    ⟨hnone, -⟩ | ⟨instruction, clause, -, -, hguarded⟩
  · have hempty : ran.calls = [] := hnone
    rw [hempty] at hsplit
    simp at hsplit
  obtain ⟨aim, seen, snap, listing, hearlier, haim, -⟩ :=
    hguarded.aimed earlier sent rest hsplit hdispatch
  have hthreaded : Threaded shared.answer start ran.calls ran.after := threaded_converse _ _
  have hmem : sent ∈ ran.calls := by simp [hsplit]
  rw [hthreaded.result_eq sent hmem] at hresp
  use clause, aim, seen, snap, listing, hearlier, haim
  intro hbound
  obtain ⟨tree, row, htree, hrow, hgate⟩ := haim.gated hbound
  obtain ⟨hfound, hserved⟩ := SharedHost.answer_gated hgate hresp
  exact ⟨tree, row, htree, hrow, hgate, hfound, hserved⟩

end Shared

/-- The todo store, with no other connections. -/
def sharedStore : SharedHost TodoStore where
  env := .bare
  host := TodoStore.agentHost .bare
  token := none
  nonce := none
  others := fun _ s => s
  polls := fun _ => 0
  request := fun k op => .new (toString k) op
  request_op := fun _ _ => rfl

/-- The tools without schema files. -/
def schemaless : InstinctTools where
  lex := .ascii
  inst := .standard
  schemaPaths := []
  catalogOf := fun _ => .error "no schema files"
  decodeKeybindings := fun _ => .ok []

/-- The tools with the bindings that the store lists. -/
def storeTools : InstinctTools :=
  { schemaless with decodeKeybindings := fun _ => .ok TodoStore.keybindingCatalog }

def clickSettings : Json := .object [("instruction", .string "click Settings")]

def settingsRun : Ran Json (Nat × TodoStore × TreeCache) :=
  (act storeTools clickSettings).ran sharedStore.answer (0, .new .headless, {})

/-- The third call of the run is the click, and it is accepted. -/
theorem settingsRun_calls :
    (settingsRun.calls.map fun e => (e.op.reads, (accepted e.result).toBool)) =
      [(true, true), (true, true), (false, true), (true, true)] := by
  decide +kernel

theorem act_hits_what_it_saw_settings :
    ∃ earlier sent rest resp, settingsRun.calls = earlier ++ sent :: rest ∧
      sent.op.reads = false ∧ accepted sent.result = .ok resp ∧
      ∃ (clause : String) (aim : Aim) (seen : List (Exchange (Nat × TodoStore × TreeCache)))
        (snap listing : Exchange (Nat × TodoStore × TreeCache)),
        earlier = seen ++ [snap, listing] ∧
        aim.Behind storeTools clickSettings clause snap listing sent.op ∧
        (aim.decision.kind.nodeBound = true → ∃ tree row, aim.snap.tree = some tree ∧
          row ∈ viableNodes none true tree.nodes ∧
          sent.op.fingerprintGate =
            some (row.2.id, UiNode.fingerprint row.2 (row.1.map (·.id))) ∧
          (sharedStore.treeAt sent.before).fingerprintOf row.2.id =
            some (UiNode.fingerprint row.2 (row.1.map (·.id))) ∧
          (sharedStore.answer sent.before sent.op).2.2.1 =
            (sharedStore.host.dispatch (sharedStore.stateAt sent.before) sent.op).2) := by
  have hcalls := settingsRun_calls
  rcases hsplit : settingsRun.calls with _ | ⟨a, _ | ⟨b, _ | ⟨sent, rest⟩⟩⟩ <;>
    simp only [hsplit, List.map_cons, List.map_nil, List.cons.injEq, reduceCtorEq, and_false,
      Prod.mk.injEq] at hcalls
  obtain ⟨-, -, ⟨hdispatch, haccepted⟩, -⟩ := hcalls
  cases hresult : accepted sent.result with
  | error err =>
    rw [hresult] at haccepted
    cases haccepted
  | ok resp =>
    exact ⟨[a, b], sent, rest, resp, rfl, hdispatch, hresult,
      act_hits_what_it_saw storeTools clickSettings sharedStore (0, .new .headless, {}) [a, b] sent
        rest hsplit hdispatch resp hresult⟩

end Mcp

end GpuiAgent
