import GpuiAgent.Host.FingerprintGate
import GpuiAgent.Todo.App

namespace GpuiAgent

open Framework Framework.RoseTree

/-- With a cache of its own a request sees the tree of the moment. -/
theorem TreeCache.fingerprintOf_snapshot_empty {σ : Type} (host : AgentHost σ) (s : σ)
    (target : String) : (TreeCache.snapshot host s {}).1.fingerprintOf target =
      (host.snapshot s).fingerprintOf target := by
  unfold TreeCache.snapshot
  have miss : ((host.revision s).bind fun rev =>
      ([] : List (Nat × UiTree)).getLast?.filter fun e => e.1 = rev) = none := by
    cases host.revision s <;> rfl
  simp only [miss]
  split <;> rfl

/-- An error that begins otherwise is no refusal of the gate. -/
theorem isStaleDispatchError_append {s : String} (rest : String)
    (h : ∀ pre ∈ [STALE_TARGET, TARGET_GONE], startsWith s pre = false ∧ startsWith pre s = false) :
    isStaleDispatchError (s ++ rest) = false := by
  have other : ∀ pre ∈ [STALE_TARGET, TARGET_GONE], startsWith (s ++ rest) pre = false := by
    intro pre hpre
    refine Bool.eq_false_iff.mpr fun begins => ?_
    rcases startsWith_append_cases begins with begins | begins
    · exact Bool.eq_false_iff.mp (h pre hpre).1 begins
    · exact Bool.eq_false_iff.mp (h pre hpre).2 begins
  rw [isStaleDispatchError, other STALE_TARGET (by simp), other TARGET_GONE (by simp), Bool.or_false]

theorem hitPoint_error {bounds : Bounds} {error : String} (h : hitPoint bounds = .error error) :
    ∃ detail, error = virtualUnavailable detail := by
  unfold hitPoint at h
  split_ifs at h
  exact ⟨_, (Except.error.inj h).symm⟩

/-- A click that cannot be planned is not refused as stale. -/
theorem planClick_not_stale {tree : UiTree} {target error : String}
    (h : planClick tree target = .error error) : isStaleDispatchError error = false := by
  unfold planClick at h
  cases found : tree.requireId target with
  | error e =>
    obtain rfl : e = error := by simpa [found, bind, Except.bind] using h
    unfold UiTree.requireId at found
    split at found
    · obtain rfl := Except.error.inj found
      simp only [String.append_assoc, toString]
      exact isStaleDispatchError_append _ (by decide +kernel)
    · cases found
    · obtain rfl := Except.error.inj found
      simp only [String.append_assoc, toString]
      exact isStaleDispatchError_append _ (by decide +kernel)
  | ok n =>
    cases hit : hitPoint n.label.bounds with
    | error e =>
      obtain ⟨detail, rfl⟩ := hitPoint_error hit
      obtain rfl : virtualUnavailable detail = error := by
        simpa [found, hit, bind, Except.bind] using h
      simp only [virtualUnavailable, String.append_assoc, toString]
      exact isStaleDispatchError_append _ (by decide +kernel)
    | ok point => simp [found, hit, bind, Except.bind, pure, Except.pure] at h

namespace TodoUi

variable (win : Window) (ui : TodoUi)

/-- The input shows the draft. -/
def Synced (ui : TodoUi) : Prop := ui.store.draft = ui.input

variable {ui}

theorem Synced.setBound (h : ui.Synced) (id : String) (bounds : Bounds) :
    (ui.setBound id bounds).Synced := by
  unfold TodoUi.setBound
  split_ifs <;> exact h

theorem Synced.removeBound (h : ui.Synced) (id : String) : (ui.removeBound id).Synced := by
  unfold TodoUi.removeBound
  split_ifs <;> exact h

variable (ui)

theorem synced_prepare : (ui.prepare win).Synced := by
  have start : ui.syncDraftFromInput.Synced := rfl
  have bounded := start.setBound ids.WINDOW ⟨.finite 0, .finite 0, win.width, win.height⟩
  unfold prepare recordWindowBounds
  dsimp only
  split_ifs
  · exact bounded
  · exact ((bounded.removeBound _).removeBound _).removeBound _

/-- A virtual op fails before the click, or it has put events into the window. -/
theorem dispatchVirtual_cases {op : Op} (h : op.isVirtualInput = true) :
    (∃ target error, planClick ui.snapshotWithBounds target = .error error ∧
      ui.dispatchVirtual win op = ⟨.error error, ui, []⟩) ∨
    (ui.dispatchVirtual win op).injected ≠ [] := by
  have clicked : ∀ target,
      (∃ error, planClick ui.snapshotWithBounds target = .error error ∧
        ui.virtualClick win target = ⟨.error error, ui, []⟩) ∨
      (ui.virtualClick win target).injected ≠ [] := by
    intro target
    unfold virtualClick
    cases planClick ui.snapshotWithBounds target with
    | error error => exact .inl ⟨error, rfl, rfl⟩
    | ok plan => exact .inr (List.cons_ne_nil _ _)
  have typed : ∀ target tokens result,
      (∃ error, planClick ui.snapshotWithBounds target = .error error ∧
        ui.virtualKeys win target tokens result = ⟨.error error, ui, []⟩) ∨
      (ui.virtualKeys win target tokens result).injected ≠ [] := by
    intro target tokens result
    rcases clicked target with ⟨error, plan, heq⟩ | events
    · exact .inl ⟨error, plan, by rw [virtualKeys, heq]⟩
    · refine .inr ?_
      unfold virtualKeys
      generalize ui.virtualClick win target = click at events
      obtain ⟨outcome, after, injected⟩ := click
      cases outcome with
      | error error => exact events
      | ok clicked =>
        cases tokens with
        | error error => exact events
        | ok tokens =>
          dsimp only
          split
          · exact List.append_ne_nil_of_left_ne_nil events _
          · exact List.append_ne_nil_of_left_ne_nil events _
  cases op with
  | click target delivery fp => exact (clicked target).imp (fun h => ⟨target, h⟩) id
  | type target text delivery fp => exact (typed target _ _).imp (fun h => ⟨target, h⟩) id
  | key target key delivery fp => exact (typed target _ _).imp (fun h => ⟨target, h⟩) id
  | _ => simp [Op.isVirtualInput] at h

end TodoUi

namespace TodoApp

variable {env : Env} {win : Window} {app : TodoApp} {posted : MailboxRequest}
  {target : String} {fp : UInt64}

/-- What the gate promises for one request on the mailbox path: the target is as expected in the
tree the app shows, or the request is refused, no event is injected and the app stays as it was when
it took the request up. -/
def MailboxGate (env : Env) (win : Window) (app : TodoApp) (posted : MailboxRequest)
    (target : String) (fp : UInt64) : Prop :=
  let turn := app.serveOne env win posted
  (app.prepare win).snapshotWithBounds.fingerprintOf target = some fp ∨
    (turn.reply.any Response.isStaleRefusal ∧ turn.injected = [] ∧
      turn.app = app.withUi (app.prepare win))

/-- A virtual op skips the gate. -/
theorem serveOne_of_virtual (h : posted.request.op.isVirtualInput = true) :
    app.serveOne env win posted =
      let out := (app.prepare win).dispatchVirtual win posted.request.op
      { reply := some (.ofDispatch posted.request.id out.result)
        app := app.withUi out.ui.syncInputFromStore
        injected := out.injected } := by
  obtain ⟨ticket, v, id, token, auth, op⟩ := posted
  cases op <;> simp only [Op.isVirtualInput, Bool.false_eq_true] at h <;>
    simp only [serveOne, Op.isVirtualInput, h, if_true] <;> rfl

/-- The last branch of the loop, for the ops that have a fingerprint. -/
theorem serveOne_of_semantic (semantic : posted.request.op.isVirtualInput = false)
    (gate : posted.request.op.fingerprintGate = some (target, fp)) :
    app.serveOne env win posted =
      let out := handleRequest env (TodoStore.agentHost env) win.polls (app.prepare win).store
        posted.request none none
      { reply := some { out.1 with
          tree := out.1.tree.map fun t => t.applyBoundsMap (app.prepare win).layoutBounds }
        app := app.withUi { app.prepare win with store := out.2 }.syncInputFromStore } := by
  obtain ⟨ticket, v, id, token, auth, op⟩ := posted
  cases op <;> simp only [Op.fingerprintGate, reduceCtorEq] at gate <;>
    simp only [serveOne, semantic, Bool.false_eq_true, if_false, reduceCtorEq, decide_false,
      Bool.or_false] <;> rfl

/-- A refused op leaves the app as it was. -/
theorem serveOne_of_refused (semantic : posted.request.op.isVirtualInput = false)
    (authorized : posted.request.v = PROTOCOL_VERSION)
    (gate : posted.request.op.fingerprintGate = some (target, fp)) {error : String}
    (refusal : fingerprintRefusal (app.prepare win).store.tree target fp = some error) :
    app.serveOne env win posted =
      { reply := some (.err posted.request.id error), app := app.withUi (app.prepare win) } := by
  have request : handleRequest env (TodoStore.agentHost env) win.polls (app.prepare win).store
      posted.request none none = (.err posted.request.id error, (app.prepare win).store) := by
    have seen := TreeCache.fingerprintOf_snapshot_empty (TodoStore.agentHost env)
      (app.prepare win).store target
    have cached : fingerprintRefusal (TreeCache.snapshot (TodoStore.agentHost env)
        (app.prepare win).store {}).1 target fp = some error := by
      rw [← refusal]
      unfold fingerprintRefusal
      rw [seen]
      rfl
    unfold handleRequest
    rw [handleRequestCached_of_gate _ _ _ _ (authorizeRequest_untokened authorized) gate, cached]
  have synced : (app.prepare win).syncInputFromStore = app.prepare win :=
    if_pos (app.toTodoUi.synced_prepare win)
  rw [serveOne_of_semantic semantic gate, request]
  exact congrArg (fun ui => Turn.mk _ (app.withUi ui) [] false) synced

theorem mailboxGate_iff (authorized : posted.request.v = PROTOCOL_VERSION)
    (gate : posted.request.op.fingerprintGate = some (target, fp)) :
    MailboxGate env win app posted target fp ↔
      posted.request.op.isVirtualInput = false ∨
        (app.prepare win).snapshotWithBounds.fingerprintOf target = some fp := by
  have tree : (app.prepare win).snapshotWithBounds.fingerprintOf target =
      (app.prepare win).store.tree.fingerprintOf target := UiTree.fingerprintOf_applyBoundsMap _ _ _
  unfold MailboxGate
  by_cases fresh : (app.prepare win).snapshotWithBounds.fingerprintOf target = some fp
  · simp [fresh]
  simp only [fresh, false_or, or_false]
  cases delivery : posted.request.op.isVirtualInput with
  | false =>
    have refused : fingerprintRefusal (app.prepare win).store.tree target fp ≠ none := by
      rwa [ne_eq, fingerprintRefusal_eq_none, ← tree]
    obtain ⟨error, refusal⟩ := Option.ne_none_iff_exists'.mp refused
    have stale := isStaleDispatchError_of_refusal refusal
    rw [serveOne_of_refused delivery authorized gate refusal]
    simp [Response.isStaleRefusal, Response.err, stale]
  | true =>
    rw [serveOne_of_virtual delivery]
    rcases (app.prepare win).dispatchVirtual_cases win delivery with
      ⟨target', error, plan, heq⟩ | events
    · have stale := planClick_not_stale plan
      simp [heq, Response.ofDispatch, Response.isStaleRefusal, Response.err, stale]
    · simp [events]

end TodoApp

open TodoApp in
/-- The gate on both paths. The direct path keeps the promise exactly when the tree that the
connection's cache holds for the host's revision misleads it about nothing it lets pass; the mailbox
path exactly when the op is semantic or its target is as expected anyway. -/
theorem staleTarget_gate_iff {env : Env} {req : Request} {target : String} {fp : UInt64}
    (authorized : req.v = PROTOCOL_VERSION)
    (gate : req.op.fingerprintGate = some (target, fp)) :
    (∀ (σ : Type) (host : AgentHost σ) (polls : Nat) (s : σ) (cache : TreeCache)
      (token : Option String) (nonce : Option (List UInt8)),
      authorizeRequest env req token nonce = .ok () →
        (DirectGate env host polls s cache req token nonce target fp ↔
          ((cache.snapshot host s).1.fingerprintOf target = some fp →
            (host.snapshot s).fingerprintOf target = some fp))) ∧
    ∀ (win : Window) (app : TodoApp) (ticket : Nat),
      MailboxGate env win app ⟨ticket, req⟩ target fp ↔
        req.op.isVirtualInput = false ∨
          (app.prepare win).snapshotWithBounds.fingerprintOf target = some fp :=
  ⟨fun _ host polls s cache _ _ authorized => directGate_iff host polls s cache authorized gate,
    fun _ _ _ => mailboxGate_iff authorized gate⟩

/-- A click on the Add button under a fingerprint it does not have. -/
def staleClick (delivery : DeliveryMode) : Request := .new "1" (.click ids.ADD delivery (some 0))

/-- An empty list whose Add button has been painted. -/
def paintedApp : TodoApp where
  store := .new .desktop
  layoutBounds := .ofList [(ids.ADD, (⟨.finite 0, .finite 0, .finite 8, .finite 8⟩ : Bounds))]

theorem staleTarget_gate_iff_semantic :
    DirectGate .bare (TodoStore.agentHost .bare) 0 paintedApp.store {} (staleClick .semantic) none
      none ids.ADD 0 ∧
    TodoApp.MailboxGate .bare .bare paintedApp ⟨0, staleClick .semantic⟩ ids.ADD 0 :=
  ⟨((staleTarget_gate_iff rfl rfl).1 _ _ _ _ _ _ _ rfl).mpr (by decide +kernel),
    ((staleTarget_gate_iff rfl rfl).2 _ _ _).mpr (.inl rfl)⟩

/-- The virtual click goes through on the mailbox path, and on the direct path a click on a button
that left the page with `nav.go`, which does not count a revision. -/
theorem staleTarget_gate_fails :
    (¬ TodoApp.MailboxGate .bare .bare paintedApp ⟨0, staleClick .virtual⟩ ids.ADD 0 ∧
      (paintedApp.serveOne .bare .bare ⟨0, staleClick .virtual⟩).injected.length = 3) ∧
    let store := (TodoStore.new .headless).setDraft "milk"
    let fp := (store.tree.fingerprintOf ids.ADD).getD 0
    let host := TodoStore.agentHost .bare
    let cache := (TreeCache.snapshot host store {}).2
    let store := (store.invoke "nav.go" (.object [("page", .string "settings")])).2
    ¬ DirectGate .bare host 0 store cache (.new "2" (.click ids.ADD .semantic (some fp))) none none
      ids.ADD fp := by
  refine ⟨⟨?_, by decide +kernel⟩, ?_⟩
  · rw [TodoApp.mailboxGate_iff rfl rfl]
    decide +kernel
  · intro store fp host cache store'
    rw [directGate_iff host 0 store' cache rfl rfl]
    decide +kernel

end GpuiAgent
