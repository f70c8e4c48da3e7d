import GpuiAgent.Policy.Runner
import GpuiAgent.Todo.View

namespace GpuiAgent

open Framework

/-- The value of the first node with an id. -/
def UiTree.valueAt (tree : UiTree) (id : String) : Option String :=
  (tree.find id).bind fun n => n.label.value

/-- The verification of the step that a turn recorded last. -/
def Turn.verification {σ : Type} : Turn σ → Option String
  | .next s | .stop _ s => s.steps.getLast?.map StepRecord.verification
  | .fail _ | .panic => none

namespace Runner

variable {σ : Type} (r : Runner σ) (clause : String) (d : PolicyDecision) (action : OfferedAction)
  (payload : String) (old : UiTree) (s : RunState σ)

/-- Whatever tree is observed after the op, the step counts as a success exactly if the field's
value is the one before the op and then the payload. -/
def VerifiesAppend (id : String) : Prop :=
  ∀ prev, old.valueAt id = some prev → ∀ after : UiTree,
    (r.recordTurn clause d action (some payload) old { s with tree := after }).verification =
      some "success" ↔ after.valueAt id = some (prev ++ payload)

variable {clause d action payload old s} {id : String}

theorem recordTurn_verification (payload : Option String) :
    (r.recordTurn clause d action payload old s).verification =
      some (verify d action payload s.tree (!diffIsEmpty old s.tree)) := by
  unfold recordTurn
  dsimp only
  split_ifs
  · simp [Turn.verification, recorded]
  · simp [Turn.verification, recorded]

variable {r}

theorem append_eq_right_iff {a b : String} : a ++ b = b ↔ a = "" := by
  constructor
  · intro h
    have hlen := congrArg String.length h
    rw [String.length_append] at hlen
    exact String.length_eq_zero_iff.mp (by omega)
  · rintro rfl
    simp

/-- A value that is read back is compared with the payload alone. -/
theorem verify_type_iff (hkind : d.kind = .type) (htarget : action.target = some id) (tree : UiTree)
    (changed : Bool) :
    verify d action (some payload) tree changed = "success" ↔ tree.valueAt id = some payload := by
  unfold verify UiTree.valueAt
  rw [if_pos (.inl hkind), htarget]
  dsimp only [Option.bind_some]
  cases (tree.find id).bind fun n => n.label.value with
  | none => simp
  | some got =>
    dsimp only
    split_ifs with h
    · simp [h]
    · simp [h]

/-- A tree in which the field has a value. -/
def fieldTree (id value : String) : UiTree where
  app := ""
  platform := .headless
  ready := true
  nodes := [(UiNode.new id Role.TEXTBOX "").withValue value]
  rev := none

theorem valueAt_fieldTree (id value : String) : (fieldTree id value).valueAt id = some value := by
  simp [UiTree.valueAt, UiTree.find, fieldTree, UiNode.new, UiNode.withValue]

theorem verifiesAppend_iff (hkind : d.kind = .type) (htarget : action.target = some id) :
    r.VerifiesAppend clause d action payload old s id ↔
      ∀ prev, old.valueAt id = some prev → prev = "" := by
  unfold VerifiesAppend
  refine forall₂_congr fun prev _ => ?_
  simp only [recordTurn_verification, Option.some_inj, verify_type_iff hkind htarget]
  constructor
  · intro h
    have hvalue := (h (fieldTree id payload)).mp (valueAt_fieldTree id payload)
    rw [valueAt_fieldTree, Option.some_inj] at hvalue
    exact append_eq_right_iff.mp hvalue.symm
  · rintro rfl after
    simp

end Runner

namespace TodoStore

/-- Typing appends to the draft, and the tree shows it. -/
theorem valueAt_dispatch_type (env : Env) {s : TodoStore} (hpage : s.page = .todos) (text : String)
    (fp : Option UInt64) :
    (s.dispatch env (.type ids.INPUT text .semantic fp)).2.tree.valueAt ids.INPUT =
      some (s.draft ++ text) := by
  have hafter : (s.dispatch env (.type ids.INPUT text .semantic fp)).2 =
      { s with draft := s.draft ++ text }.bumpRevision := rfl
  rw [hafter]
  exact find_input hpage

end TodoStore

open Runner in
/-- The verification of a typed text takes the field for empty before it: over any trees, and where
the todo store executes the op of the decision. -/
theorem type_verified_iff {σ : Type} (r : Runner σ) (clause : String) (d : PolicyDecision)
    (action : OfferedAction) (payload id : String) (hkind : d.kind = .type)
    (htarget : action.target = some id) :
    (∀ (old : UiTree) (s : RunState σ), r.VerifiesAppend clause d action payload old s id ↔
      ∀ prev, old.valueAt id = some prev → prev = "") ∧
    (∀ (env : Env) (s : TodoStore) (keybindings : List KeybindingInfo) (world : σ) (op : Op)
      (changed : Bool), id = ids.INPUT → s.page = .todos →
      (opForDecision d action (some payload) .semantic clause keybindings r.invokeArgs world).1 =
        .ok op →
      (s.dispatch env op).2.tree.valueAt id = some (s.draft ++ payload) ∧
        (verify d action (some payload) (s.dispatch env op).2.tree changed = "success" ↔
          s.draft = "")) := by
  refine ⟨fun old s => verifiesAppend_iff hkind htarget, ?_⟩
  rintro env s keybindings world op changed rfl hpage hop
  obtain ⟨fp, rfl⟩ : ∃ fp, op = .type ids.INPUT payload .semantic fp := by
    unfold opForDecision at hop
    rw [hkind, htarget] at hop
    cases hfp : action.fingerprint with
    | none => simp [hfp, okOr, bind, Except.bind, Except.map] at hop
    | some fp =>
      simp [hfp, okOr, bind, Except.bind, Except.map, Op.withFingerprint] at hop
      exact ⟨some fp, hop.symm⟩
  have hvalue := TodoStore.valueAt_dispatch_type env hpage payload fp
  refine ⟨hvalue, ?_⟩
  rw [verify_type_iff hkind htarget, hvalue, Option.some_inj, append_eq_right_iff]

/-- The todo input of the store, offered for typing. -/
def inputAction : OfferedAction where
  id := .forTarget .type ids.INPUT
  kind := .type
  target := some ids.INPUT
  label := "What needs doing?"
  role := some "textbox"
  dangerous := false
  fingerprint := some 0
  state := none

def typeDecision : PolicyDecision :=
  ⟨.forTarget .type ids.INPUT, .type, "What needs doing?", 900, [], []⟩

theorem wait_poll_ms_pos : 0 < WAIT_POLL_MS := by decide

/-- Runs the todo store, types once and is done. Every snapshot is a full tree. -/
def storeRunner : Runner TodoStore where
  lex := .ascii
  rpc store op := match op with
    | .snapshot .. => (.ok { Response.success "1" with tree := some store.tree }, store)
    | op => match store.dispatch .bare op with
      | (.ok _, store) => (.ok (.success "1"), store)
      | (.error error, store) => (.ok (.err "1" error), store)
  decide store _ _ history :=
    (.ok (.choice
      (if history.isEmpty then typeDecision else ⟨"DONE", .done, "", 0, [], []⟩)), store)
  invokeArgs store _ _ := (.ok .null, store)
  decodeDiff _ := .error "no diff"
  decodeKeybindings _ := .ok []
  waitPollMs_pos := wait_poll_ms_pos

/-- The input holds `draft` before the run. -/
def draftedStore (draft : String) : TodoStore := { TodoStore.new .headless with draft }

theorem type_verified_iff_empty :
    Runner.verify typeDecision inputAction (some "milk")
      ((draftedStore "").dispatch .bare (.type ids.INPUT "milk" .semantic (some 0))).2.tree true =
        "success" :=
  ((type_verified_iff storeRunner "" typeDecision inputAction "milk" ids.INPUT rfl rfl).2 .bare
    (draftedStore "") [] (draftedStore "") _ true rfl rfl rfl).2.mpr rfl

def verifications : Runner.Ending → List String
  | .receipt receipt => receipt.steps.map StepRecord.verification
  | _ => []

/-- The run types into a field that holds `Buy `: the value is right, and the step counts as
wrong. -/
theorem typed_wrongEffect :
    (draftedStore "Buy ").tree.valueAt ids.INPUT = some "Buy " ∧
    ((draftedStore "Buy ").dispatch .bare (.type ids.INPUT "milk" .semantic none)).2.tree.valueAt
      ids.INPUT = some ("Buy " ++ "milk") ∧
    verifications (storeRunner.run 10 "type \"milk\" into What needs doing?"
      ⟨draftedStore "Buy ", 0⟩) = ["wrong-effect"] :=
  ⟨by decide +kernel, by decide +kernel, by decide +kernel⟩

end GpuiAgent
