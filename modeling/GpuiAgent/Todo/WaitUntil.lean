import GpuiAgent.Server.WaitSound
import GpuiAgent.Todo.Store

namespace GpuiAgent

open Framework MailboxServer

namespace Waiting

variable {σ ι : Type}

/-- In a run in which the host's revision never goes down and the call never posts an assert to a full
mailbox after a probe that gave a revision, it skips an assert at a revision only after an assert of
its own was evaluated at that revision or later, and failed. -/
theorem skipped_evaluated {req : Request} {spec : AssertSpec} (ui : ObservedUi σ ι) (app : σ)
    (events : List (WaitEvent ι)) (current : req.v = PROTOCOL_VERSION)
    (monotone : ∀ pre e, pre ++ [e] <+: events →
      RevLe (ui.revision (run req spec ui.toUiThread { server := { app } } pre).server.app)
        (ui.revision (run req spec ui.toUiThread { server := { app } } (pre ++ [e])).server.app))
    (room : ∀ pre expired late, pre ++ [.call expired late] <+: events → ∀ rev,
      (run req spec ui.toUiThread { server := { app } } pre).call.phase = .posting (some rev) →
        (run req spec ui.toUiThread { server := { app } } pre).server.mailbox.inner.length <
          MAX_MAILBOX_DEPTH)
    (pre : List (WaitEvent ι)) (hpre : pre <+: events) :
    ∀ rev ∈ (run req spec ui.toUiThread { server := { app } } pre).call.skipped,
      (run req spec ui.toUiThread { server := { app } } pre).Evaluated spec ui rev := by
  have inv : Inv req spec ui (run req spec ui.toUiThread { server := { app } } pre) := by
    refine prefix_induction
      (P := fun pre => Inv req spec ui (run req spec ui.toUiThread { server := { app } } pre))
      (inv_start ui app) (fun pre e hpre ih => ?_) pre hpre
    have grows := monotone pre e hpre
    simp only [run, List.foldl_append, List.foldl_cons, List.foldl_nil] at ih grows ⊢
    cases e with
    | call expired late => exact ih.call current expired late (room pre expired late hpre)
    | other e => exact ih.server e grows
  exact inv.skipped

/-- The todo store behind a mailbox, each request answered by `handle_request`. -/
def storeUi : ObservedUi TodoStore Unit :=
  (TodoStore.agentHost .bare).observedUi .bare 0 fun s _ => s

/-- The call posts a request, the UI thread serves it and the call reads the reply. -/
def roundTrip : List (WaitEvent Unit) :=
  [.call false false, .other .take, .other .serve, .call false false]

/-- A probe, then an assert that finds the mailbox full, then a probe at the same revision. -/
def crowdedRun : List (WaitEvent Unit) :=
  roundTrip ++ List.replicate MAX_MAILBOX_DEPTH (.other (.push (.new "2" .hello))) ++
    [.call false false, .call false false, .other .take] ++
    List.replicate MAX_MAILBOX_DEPTH (.other .serve) ++ roundTrip

def waitFor (target : String) : Request := .new "1" (.waitUntil 1000 { target })

/-- The full mailbox's reply is taken for an assert that failed, although nothing was evaluated and the
condition holds. -/
theorem skipped_not_evaluated :
    let w := run (waitFor ids.ADD) { target := ids.ADD } storeUi.toUiThread
      { server := { app := .new .desktop } } crowdedRun
    w.call.skipped = [0] ∧ ¬ w.Evaluated { target := ids.ADD } storeUi 0 ∧
      storeUi.evaluate w.server.app { target := ids.ADD } = .ok () := by
  intro w
  have outcome : w.call.skipped = [0] ∧
      (∀ e ∈ w.server.served, e.posted.request.op ≠ .assert { target := ids.ADD }) ∧
      storeUi.evaluate w.server.app { target := ids.ADD } = .ok () := by decide +kernel
  refine ⟨outcome.1, ?_, outcome.2.2⟩
  rintro ⟨e, he, _, op, _⟩
  exact outcome.2.1 e he op

/-- A probe, an assert that fails, and a probe that finds the same revision. -/
def quietRun : List (WaitEvent Unit) := roundTrip ++ roundTrip ++ roundTrip

def quietState (events : List (WaitEvent Unit)) : Waiting TodoStore :=
  run (waitFor "nope") { target := "nope" } storeUi.toUiThread { server := { app := .new .desktop } }
    events

theorem skipped_evaluated_quietRun : (quietState quietRun).call.skipped = [0] ∧
    ∀ rev ∈ (quietState quietRun).call.skipped,
      (quietState quietRun).Evaluated { target := "nope" } storeUi rev := by
  have grows : ∀ i (hi : i < quietRun.length),
      RevLe (storeUi.revision (quietState (quietRun.take i)).server.app)
        (storeUi.revision (quietState (quietRun.take i ++ [quietRun[i]])).server.app) := by
    decide +kernel
  have short : ∀ i (_ : i < quietRun.length),
      (quietState (quietRun.take i)).server.mailbox.inner.length < MAX_MAILBOX_DEPTH := by
    decide +kernel
  refine ⟨by decide +kernel, skipped_evaluated storeUi (.new .desktop) quietRun rfl
    (forall_prefix_of_getElem grows) (fun pre expired late hpre rev _ => ?_) quietRun
    (List.prefix_refl _)⟩
  exact forall_prefix_of_getElem (P := fun pre _ =>
    (quietState pre).server.mailbox.inner.length < MAX_MAILBOX_DEPTH) short pre _ hpre

end Waiting

end GpuiAgent
