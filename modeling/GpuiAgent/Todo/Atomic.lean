import GpuiAgent.Todo.Revision

namespace GpuiAgent

open Framework

section Handle

variable {σ : Type} (env : Env) (host : AgentHost σ)

/-- A request is handed to the host once it is authorized and, for a keybinding, past the gate;
otherwise it leaves the host's state. -/
theorem handleRequestCached_state (polls : Nat) (s : σ) (cache : TreeCache) (req : Request)
    (token : Option String) (nonce : Option (List UInt8)) :
    (handleRequestCached env host polls s cache req token nonce).2.1 = s ∨
      (authorizeRequest env req token nonce = .ok () ∧
        (∀ binding chord scope confirm activate,
          req.op = .keybinding binding chord scope confirm activate → ∃ entry,
            authorizeKeybindingOp req.op (host.keybindings s) (host.isAppFocused s) = .ok entry) ∧
        (handleRequestCached env host polls s cache req token nonce).1 =
          .ofDispatch req.id (host.dispatch s req.op).1 ∧
        (handleRequestCached env host polls s cache req token nonce).2.1 =
          (host.dispatch s req.op).2) := by
  unfold handleRequestCached
  cases hauth : authorizeRequest env req token nonce with
  | error resp => exact Or.inl rfl
  | ok _ =>
    cases hop : req.op with
    | wait timeoutMs => cases timeoutMs <;> exact Or.inl rfl
    | screenshot path mode target maxHeightPx =>
      dsimp only
      split <;> exact Or.inl rfl
    | assert spec =>
      dsimp only
      split <;> exact Or.inl rfl
    | events since limit =>
      dsimp only
      split <;> exact Or.inl rfl
    | keybinding binding chord scope confirm activate =>
      dsimp only
      cases hgate : authorizeKeybindingOp (.keybinding binding chord scope confirm activate)
          (host.keybindings s) (host.isAppFocused s) with
      | error error => exact Or.inl rfl
      | ok entry => exact Or.inr ⟨rfl, fun _ _ _ _ _ _ => ⟨entry, rfl⟩, rfl, rfl⟩
    | shutdown => exact Or.inr ⟨rfl, fun _ _ _ _ _ h => (by cases h), rfl, rfl⟩
    | click _ _ _ | type _ _ _ _ | setValue _ _ _ | key _ _ _ _ | invoke _ _ =>
      dsimp only
      split
      · exact Or.inr ⟨rfl, fun _ _ _ _ _ h => (by cases h), rfl, rfl⟩
      · split
        · exact Or.inl rfl
        · exact Or.inr ⟨rfl, fun _ _ _ _ _ h => (by cases h), rfl, rfl⟩
    | _ => exact Or.inl rfl

theorem handleRequest_eq (polls : Nat) (s : σ) (req : Request) (token : Option String)
    (nonce : Option (List UInt8)) : handleRequest env host polls s req token nonce =
      ((handleRequestCached env host polls s {} req token nonce).1,
        (handleRequestCached env host polls s {} req token nonce).2.1) := rfl

end Handle

namespace TodoStore

/-- A call that answers with an error leaves the store. -/
def Atomic {α : Type} (s : TodoStore) (r : Except String α × TodoStore) : Prop :=
  ∀ e, r.1 = .error e → r.2 = s

section Calls

variable (s : TodoStore)

theorem atomic_ok {α : Type} {a : α} {t : TodoStore} : Atomic s (.ok a, t) := by
  intro e h
  cases h

theorem atomic_same {α : Type} {r : Except String α} : Atomic s (r, s) := fun _ _ => rfl

theorem Atomic.withTodo {s : TodoStore} {r : Except String Todo × TodoStore} (h : Atomic s r) :
    Atomic s (withTodo r) := by
  intro e he
  obtain ⟨result, t⟩ := r
  cases result with
  | error error => exact h error rfl
  | ok todo => cases he

theorem add_atomic (title : String) : Atomic s (s.add title) := by
  unfold add
  simp only
  split_ifs
  · exact atomic_same s
  · exact atomic_ok s

theorem addFromDraft_atomic : Atomic s s.addFromDraft := add_atomic s s.draft

theorem toggle_atomic (id : Nat) : Atomic s (s.toggle id) := by
  unfold toggle
  split
  · exact atomic_same s
  · exact atomic_ok s

theorem delete_atomic (id : Nat) : Atomic s (s.delete id) := by
  unfold delete
  split
  · exact atomic_same s
  · exact atomic_ok s

theorem click_atomic (target : String) : Atomic s (s.click target) := by
  unfold click
  split_ifs
  · exact atomic_ok s
  · exact atomic_ok s
  · exact atomic_ok s
  · exact atomic_ok s
  · exact (addFromDraft_atomic s).withTodo
  · split
    · exact (toggle_atomic s _).withTodo
    · split
      · exact (delete_atomic s _).withTodo
      · split
        · exact (toggle_atomic s _).withTodo
        · exact atomic_same s

theorem key_atomic (target k : String) : Atomic s (s.key target k) := by
  unfold key
  split_ifs
  · exact (addFromDraft_atomic s).withTodo
  · exact atomic_ok s
  · exact atomic_same s

theorem invoke_atomic (name : String) (args : Json) : Atomic s (s.invoke name args) := by
  unfold invoke
  split
  · split
    · exact (add_atomic s _).withTodo
    · exact atomic_same s
  · split
    · exact (toggle_atomic s _).withTodo
    · exact atomic_same s
  · split
    · exact (delete_atomic s _).withTodo
    · exact atomic_same s
  · exact atomic_ok s
  · split
    · exact atomic_ok s
    · exact atomic_ok s
    · exact atomic_same s
    · exact atomic_same s
  · exact atomic_ok s
  · exact atomic_same s

theorem performKeybinding_fst_error_iff (binding : String) :
    (∃ e, (s.performKeybinding binding).1 = .error e) ↔
      ∀ row ∈ keybindingCatalog, binding ≠ row.id := by
  unfold performKeybinding keybindingCatalog
  split_ifs with h₁ h₂ h₃ <;> simp [*]

theorem performKeybinding_atomic (binding : String) :
    Atomic s (s.performKeybinding binding) := by
  unfold performKeybinding
  split_ifs
  · exact atomic_ok s
  · exact atomic_ok s
  · exact atomic_ok s
  · exact atomic_same s

/-- A fire is half applied when it brings the app to the front for an Action that does not exist. -/
theorem fireKeybinding_atomic_iff (binding : String) (chord : Option String)
    (scope : KeybindingScope) (confirm activate : Bool) :
    Atomic s (s.fireKeybinding (.keybinding binding chord scope confirm activate)) ↔
      ¬ (s.platform ≠ .desktop ∧ activate = true ∧ s.appFocused = false ∧
        ∀ row ∈ keybindingCatalog, binding ≠ row.id) := by
  by_cases hdesk : s.platform = .desktop
  · rw [fireKeybinding, if_pos hdesk]
    exact iff_of_true (atomic_same s) fun h => h.1 hdesk
  · rw [fireKeybinding, if_neg hdesk]
    dsimp only
    cases activate with
    | false => exact iff_of_true (performKeybinding_atomic s binding) (by simp)
    | true =>
      have hfocus := performKeybinding_atomic { s with appFocused := true } binding
      have herr := performKeybinding_fst_error_iff { s with appFocused := true } binding
      constructor
      · intro h ⟨_, _, hnot, hrow⟩
        obtain ⟨e, he⟩ := herr.mpr hrow
        have hsame := (hfocus e he).symm.trans (h e he)
        have := congrArg appFocused hsame
        rw [hnot] at this
        cases this
      · intro h e he
        have hrow := herr.mp ⟨e, he⟩
        have hfocused : s.appFocused = true := by
          by_contra hnot
          exact h ⟨hdesk, rfl, Bool.eq_false_iff.mpr hnot, hrow⟩
        have hs : { s with appFocused := true } = s := by rw [← hfocused]
        rw [if_pos rfl]
        exact (hfocus e he).trans hs

end Calls

theorem dispatch_atomic (env : Env) (s : TodoStore) (op : Op)
    (h : ∀ binding chord scope confirm activate,
      op ≠ .keybinding binding chord scope confirm activate) :
    Atomic s (s.dispatch env op) := by
  by_cases hv : op.isVirtualInput = true
  · unfold dispatch
    rw [if_pos hv]
    exact atomic_same s
  · cases op with
    | click target delivery fp =>
      rw [dispatch, if_neg hv]
      exact click_atomic s target
    | type target text delivery fp =>
      rw [dispatch, if_neg hv]
      unfold typeInto
      split_ifs
      · exact atomic_same s
      · exact atomic_ok s
    | setValue target value fp =>
      rw [dispatch, if_neg hv]
      unfold setValue
      split_ifs
      · exact atomic_same s
      · exact atomic_ok s
    | key target k delivery fp =>
      rw [dispatch, if_neg hv]
      exact key_atomic s target k
    | keybinding binding chord scope confirm activate => exact absurd rfl (h _ _ _ _ _)
    | invoke name args =>
      have hinvoke := invoke_atomic s name args
      rw [dispatch, if_neg hv]
      dsimp only
      cases hr : (s.invoke name args).1 with
      | ok result => exact atomic_ok s
      | error error =>
        intro e he
        exact hinvoke error hr
    | shutdown => exact atomic_ok s
    | screenshot path mode target maxHeightPx => exact atomic_same s
    | _ => exact atomic_ok s

/-- A fire that passes the gate under an id with blanks around it, with `activate`, while the app is
not focused. -/
def HalfApplied (env : Env) (s : TodoStore) (req : Request) (token : Option String)
    (nonce : Option (List UInt8)) : Prop :=
  ∃ binding chord scope confirm entry,
    req.op = .keybinding binding chord scope confirm true ∧ trim binding ≠ binding ∧
      s.appFocused = false ∧ s.platform ≠ .desktop ∧
      authorizeRequest env req token nonce = .ok () ∧
      authorizeKeybindingOp req.op keybindingCatalog s.appFocused = .ok entry

theorem trim_catalog_id : ∀ row ∈ keybindingCatalog, trim row.id = row.id := by
  decide +kernel

theorem authorizeKeybindingOp_row {binding : String} {chord : Option String}
    {scope : KeybindingScope} {confirm activate appFocused : Bool} {catalog : List KeybindingInfo}
    {entry : KeybindingInfo}
    (h : authorizeKeybindingOp (.keybinding binding chord scope confirm activate) catalog
      appFocused = .ok entry) :
    entry ∈ catalog ∧ entry.id = trim binding ∧ entry.scope = scope := by
  simp only [authorizeKeybindingOp, KeybindingRequest.fromOp, bind, Except.bind] at h
  have hok := authorizeKeybinding_ok h
  exact hok

/-- A request that answers with an error leaves the store as it was, exactly when it is not half
applied. -/
theorem error_atomic_iff (env : Env) (polls : Nat) (s : TodoStore) (req : Request)
    (token : Option String) (nonce : Option (List UInt8)) :
    ((handleRequest env (agentHost env) polls s req token nonce).1.ok = false →
      (handleRequest env (agentHost env) polls s req token nonce).2 = s) ↔
      ¬ HalfApplied env s req token nonce := by
  constructor
  · intro h hhalf
    obtain ⟨binding, chord, scope, confirm, entry, hop, htrim, hfocus, hdesk, hauth, hgate⟩ := hhalf
    have hrow : ∀ row ∈ keybindingCatalog, binding ≠ row.id := by
      intro row hmem he
      apply htrim
      rw [he]
      exact trim_catalog_id row hmem
    have hnot := (fireKeybinding_atomic_iff s binding chord scope confirm true).not.mpr
      (not_not_intro ⟨hdesk, rfl, hfocus, hrow⟩)
    have hout : handleRequest env (agentHost env) polls s req token nonce =
        (.ofDispatch req.id (s.dispatch env req.op).1, (s.dispatch env req.op).2) := by
      simp only [handleRequest, handleRequestCached, hauth]
      rw [hop] at hgate ⊢
      simp only [agentHost, hgate, dispatchResponse]
    have hdispatch : s.dispatch env req.op =
        s.fireKeybinding (.keybinding binding chord scope confirm true) := by
      rw [hop]
      rfl
    rw [hout, hdispatch] at h
    refine hnot fun e he => h ?_
    rw [he]
    rfl
  · rw [handleRequest_eq]
    dsimp only
    intro hnot hok
    rcases handleRequestCached_state env (agentHost env) polls s {} req token nonce with
      hstate | ⟨hauth, hgate, hresp, hstate⟩
    · exact hstate
    · rw [hresp] at hok
      rw [hstate]
      change (s.dispatch env req.op).2 = s
      change (Response.ofDispatch req.id (s.dispatch env req.op).1).ok = false at hok
      have herr : ∃ e, (s.dispatch env req.op).1 = .error e := by
        cases hr : (s.dispatch env req.op).1 with
        | ok result => rw [hr] at hok; cases hok
        | error e => exact ⟨e, rfl⟩
      obtain ⟨e, he⟩ := herr
      by_cases hkey : ∃ binding chord scope confirm activate,
          req.op = .keybinding binding chord scope confirm activate
      · obtain ⟨binding, chord, scope, confirm, activate, hop⟩ := hkey
        obtain ⟨entry, hentry⟩ := hgate binding chord scope confirm activate hop
        have hfire : s.dispatch env req.op =
            s.fireKeybinding (.keybinding binding chord scope confirm activate) := by
          rw [hop]
          rfl
        rw [hfire] at he ⊢
        refine (fireKeybinding_atomic_iff s binding chord scope confirm activate).mpr ?_ e he
        intro hfire
        obtain ⟨hdesk, hactivate, hfocus, hrow⟩ := hfire
        subst hactivate
        have hgate' := hentry
        rw [hop] at hgate'
        obtain ⟨hmem, hid, -⟩ := authorizeKeybindingOp_row hgate'
        refine hnot ⟨binding, chord, scope, confirm, entry, hop, ?_, hfocus, hdesk, hauth, hentry⟩
        intro htrim
        exact hrow entry hmem (htrim.symm.trans hid.symm)
      · exact dispatch_atomic env s req.op (fun b c sc cf a h => hkey ⟨b, c, sc, cf, a, h⟩) e he

/-- The Action of the sample app, under its id with a blank after it. -/
def paddedFocus : Request :=
  .new "1" (.keybinding "todo.focus_input " none .focused false true)

theorem paddedFocus_half_applied : ¬ ∀ (env : Env) (platform : PlatformKind)
    (calls : List StoreCall) (polls : Nat) (req : Request) (token : Option String)
    (nonce : Option (List UInt8)),
    (handleRequest env (agentHost env) polls (run env platform calls) req token nonce).1.ok =
      false →
    (handleRequest env (agentHost env) polls (run env platform calls) req token nonce).2 =
      run env platform calls := by
  intro h
  have hsame := h .bare .headless [] 0 paddedFocus none none (by decide +kernel)
  have := congrArg appFocused hsame
  revert this
  decide +kernel

end TodoStore

end GpuiAgent
