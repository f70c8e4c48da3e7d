import GpuiAgent.Framework.Run
import GpuiAgent.Todo.Store

namespace GpuiAgent

open Framework

/-- A tree without its revision. -/
def UiTree.eraseRev (t : UiTree) : UiTree := { t with rev := none }

def Page.ofName : String → Option Page
  | "todos" => some .todos
  | "settings" => some .settings
  | _ => none

namespace TodoStore

def view (s : TodoStore) : UiTree := s.tree.eraseRev

/-- The fields the tree is built from. -/
def Shown (s t : TodoStore) : Prop :=
  s.items = t.items ∧ s.draft = t.draft ∧ s.page = t.page ∧ s.confirmDelete = t.confirmDelete ∧
    s.sidebarOpen = t.sidebarOpen ∧ s.platform = t.platform

theorem view_congr {s t : TodoStore} (h : Shown s t) : s.view = t.view := by
  obtain ⟨hi, hd, hp, hc, hs, hk⟩ := h
  simp only [view, UiTree.eraseRev, tree, navNode, pageNode, todosPage, settingsPage, listChildren,
    statusName, hi, hd, hp, hc, hs, hk]

/-- The two pages give different trees. -/
theorem page_eq_of_view_eq {s t : TodoStore} (h : s.view = t.view) : s.page = t.page := by
  have hid : s.pageNode.id = t.pageNode.id := by
    have hn := congrArg UiTree.nodes h
    simp only [view, UiTree.eraseRev, tree, UiNode.withChild, UiNode.new, RoseTree.label_node,
      RoseTree.children_node, List.nil_append, List.cons_append, List.cons.injEq,
      RoseTree.node.injEq, true_and, and_true] at hn
    rw [hn.2.2]
  revert hid
  cases hs : s.page <;> cases ht : t.page <;>
    simp [pageNode, hs, ht, todosPage, settingsPage, UiNode.id, UiNode.new, UiNode.withChild,
      ids.PAGE_TODOS, ids.PAGE_SETTINGS]

/-- What a call does to the revision and the tree: it counts, or it changes neither. -/
inductive Effect (s t : TodoStore) : Prop where
  | bumped (rev : t.rev = wrappingAdd s.rev 1)
  | quiet (rev : t.rev = s.rev) (shown : Shown s t)

theorem Shown.refl (s : TodoStore) : Shown s s := ⟨rfl, rfl, rfl, rfl, rfl, rfl⟩

theorem Effect.refl (s : TodoStore) : Effect s s := .quiet rfl (.refl s)

section Calls

variable (s : TodoStore)

theorem performKeybinding_effect (binding : String) :
    Effect s (s.performKeybinding binding).2 := by
  unfold performKeybinding
  split_ifs
  · exact .bumped rfl
  · exact .bumped rfl
  · exact .bumped rfl
  · exact .refl s

theorem add_effect (title : String) : Effect s (s.add title).2 := by
  unfold add
  simp only
  split_ifs
  · exact .refl s
  · exact .bumped rfl

theorem addFromDraft_effect : Effect s s.addFromDraft.2 := by
  rw [addFromDraft]
  exact add_effect s s.draft

theorem toggle_effect (id : Nat) : Effect s (s.toggle id).2 := by
  unfold toggle
  split
  · exact .refl s
  · exact .bumped rfl

theorem delete_effect (id : Nat) : Effect s (s.delete id).2 := by
  unfold delete
  split
  · exact .refl s
  · exact .bumped rfl

theorem click_effect (target : String) : Effect s (s.click target).2 := by
  unfold click
  split_ifs
  · exact .bumped rfl
  · exact .bumped rfl
  · exact .bumped rfl
  · exact .bumped rfl
  · rw [withTodo_snd]
    exact addFromDraft_effect s
  · split
    · rw [withTodo_snd]
      exact toggle_effect s _
    · split
      · rw [withTodo_snd]
        exact delete_effect s _
      · split
        · rw [withTodo_snd]
          exact toggle_effect s _
        · exact .refl s

theorem key_effect (target k : String) : Effect s (s.key target k).2 := by
  unfold key
  split_ifs
  · rw [withTodo_snd]
    exact addFromDraft_effect s
  · exact .bumped rfl
  · exact .refl s

theorem fireKeybinding_effect (op : Op) : Effect s (s.fireKeybinding op).2 := by
  unfold fireKeybinding
  split_ifs
  · exact .refl s
  · split
    · -- `activate` only sets the focus flag, which the tree does not show
      next binding _ _ _ activate =>
      split_ifs
      · cases performKeybinding_effect { s with appFocused := true } binding with
        | bumped rev => exact .bumped rev
        | quiet rev shown => exact .quiet rev shown
      · exact performKeybinding_effect s binding
    · exact .refl s

/-- Every invoke but `nav.go` counts what it changes; `nav.go` sets the page and nothing else. -/
theorem invoke_effect (name : String) (args : Json) :
    Effect s (s.invoke name args).2 ∨
      ∃ page, name = "nav.go" ∧
        ((args.get "page").bind Json.asStr).bind Page.ofName = some page ∧
        (s.invoke name args).2 = { s with page } := by
  unfold invoke
  split
  · split
    · rw [withTodo_snd]
      exact Or.inl (add_effect s _)
    · exact Or.inl (.refl s)
  · split
    · rw [withTodo_snd]
      exact Or.inl (toggle_effect s _)
    · exact Or.inl (.refl s)
  · split
    · rw [withTodo_snd]
      exact Or.inl (delete_effect s _)
    · exact Or.inl (.refl s)
  · exact Or.inl (.refl s)
  · split
    · next h => exact Or.inr ⟨.todos, rfl, by simp [h, Page.ofName], rfl⟩
    · next h => exact Or.inr ⟨.settings, rfl, by simp [h, Page.ofName], rfl⟩
    · exact Or.inl (.refl s)
    · exact Or.inl (.refl s)
  · exact Or.inl (.bumped rfl)
  · exact Or.inl (.refl s)

end Calls

/-- An invoke of `nav.go` that names the page not shown. -/
def movesPage (s : TodoStore) : Op → Bool
  | .invoke name args =>
    name = "nav.go" && (((args.get "page").bind Json.asStr).bind Page.ofName).any (· ≠ s.page)
  | _ => false

theorem Effect.withEvents {s t : TodoStore} (h : Effect s t) (events : EventRing) :
    Effect s { t with events } := by
  cases h with
  | bumped rev => exact .bumped rev
  | quiet rev shown => exact .quiet rev shown

theorem dispatch_invoke (env : Env) (s : TodoStore) (name : String) (args : Json) :
    ∃ events, (s.dispatch env (.invoke name args)).2 = { (s.invoke name args).2 with events } := by
  simp only [dispatch, Op.isVirtualInput, Bool.false_eq_true, if_false]
  split
  · exact ⟨_, rfl⟩
  · exact ⟨(s.invoke name args).2.events, rfl⟩

theorem dispatch_invoke_effect (env : Env) (s : TodoStore) (name : String) (args : Json) :
    Effect s (s.dispatch env (.invoke name args)).2 ∧ s.movesPage (.invoke name args) = false ∨
      s.movesPage (.invoke name args) = true ∧
        (s.dispatch env (.invoke name args)).2.rev = s.rev ∧
        (s.dispatch env (.invoke name args)).2.page ≠ s.page := by
  obtain ⟨events, he⟩ := dispatch_invoke env s name args
  rw [he]
  by_cases hgo : ∃ page, name = "nav.go" ∧
      ((args.get "page").bind Json.asStr).bind Page.ofName = some page
  · obtain ⟨page, rfl, hpage⟩ := hgo
    have hset : (s.invoke "nav.go" args).2 = { s with page } := by
      rcases hv : (args.get "page").bind Json.asStr with _ | v
      · simp [hv] at hpage
      · rw [hv, Option.bind_some] at hpage
        unfold Page.ofName at hpage
        split at hpage
        · obtain rfl := Option.some.inj hpage
          simp [invoke, hv]
        · obtain rfl := Option.some.inj hpage
          simp [invoke, hv]
        · cases hpage
    rw [hset]
    by_cases hsame : page = s.page
    · subst hsame
      exact Or.inl ⟨.quiet rfl (.refl s), by simp [movesPage, hpage]⟩
    · exact Or.inr ⟨by simp [movesPage, hpage, hsame], rfl, hsame⟩
  · left
    constructor
    · rcases invoke_effect s name args with h | ⟨page, hn, hp, -⟩
      · exact h.withEvents events
      · exact absurd ⟨page, hn, hp⟩ hgo
    · by_contra hm
      simp only [movesPage, Bool.not_eq_false, Bool.and_eq_true, decide_eq_true_eq,
        Option.any_eq_true] at hm
      obtain ⟨hn, page, hp, -⟩ := hm
      exact hgo ⟨page, hn, hp⟩

/-- One op either keeps the contract, or is a `nav.go` to the other page, which does not count. -/
theorem dispatch_effect (env : Env) (s : TodoStore) (op : Op) :
    Effect s (s.dispatch env op).2 ∧ s.movesPage op = false ∨
      s.movesPage op = true ∧ (s.dispatch env op).2.rev = s.rev ∧
        (s.dispatch env op).2.page ≠ s.page := by
  by_cases hv : op.isVirtualInput = true
  · left
    unfold dispatch
    rw [if_pos hv]
    refine ⟨.refl s, ?_⟩
    cases op <;> simp_all [Op.isVirtualInput, movesPage]
  · cases op with
    | invoke name args => exact dispatch_invoke_effect env s name args
    | click target delivery fp =>
      rw [dispatch, if_neg hv]
      exact Or.inl ⟨click_effect s target, rfl⟩
    | type target text delivery fp =>
      rw [dispatch, if_neg hv]
      refine Or.inl ⟨?_, rfl⟩
      unfold typeInto
      split_ifs
      · exact .refl s
      · exact .bumped rfl
    | setValue target value fp =>
      rw [dispatch, if_neg hv]
      refine Or.inl ⟨?_, rfl⟩
      unfold setValue
      split_ifs
      · exact .refl s
      · exact .bumped rfl
    | key target k delivery fp =>
      rw [dispatch, if_neg hv]
      exact Or.inl ⟨key_effect s target k, rfl⟩
    | keybinding binding chord scope confirm activate =>
      rw [dispatch, if_neg hv]
      exact Or.inl ⟨fireKeybinding_effect s _, rfl⟩
    | shutdown => exact Or.inl ⟨.quiet rfl (.refl s), rfl⟩
    | hello => exact Or.inl ⟨.refl s, rfl⟩
    | snapshot since format fingerprints => exact Or.inl ⟨.refl s, rfl⟩
    | revision => exact Or.inl ⟨.refl s, rfl⟩
    | events since limit => exact Or.inl ⟨.refl s, rfl⟩
    | keybindings => exact Or.inl ⟨.refl s, rfl⟩
    | assert spec => exact Or.inl ⟨.refl s, rfl⟩
    | wait timeoutMs => exact Or.inl ⟨.refl s, rfl⟩
    | waitUntil timeoutMs spec => exact Or.inl ⟨.refl s, rfl⟩
    | screenshot path mode target maxHeightPx => exact Or.inl ⟨.refl s, rfl⟩

/-- The calls that change a store: an op of the protocol, or what the window's own handlers call. -/
inductive StoreCall where
  | agent (op : Op)
  | go (page : Page)
  | toggleConfirmDelete
  | toggleSidebar
  | setDraft (draft : String)
  | setAppFocused (focused : Bool)
  | bumpRevision
  | performKeybinding (binding : String)
  | add (title : String)
  | addFromDraft
  | toggle (id : Nat)
  | delete (id : Nat)

def call (env : Env) (s : TodoStore) : StoreCall → TodoStore
  | .agent op => (s.dispatch env op).2
  | .go page => s.go page
  | .toggleConfirmDelete => s.toggleConfirmDelete
  | .toggleSidebar => s.toggleSidebar
  | .setDraft draft => s.setDraft draft
  | .setAppFocused focused => s.setAppFocused focused
  | .bumpRevision => s.bumpRevision
  | .performKeybinding binding => (s.performKeybinding binding).2
  | .add title => (s.add title).2
  | .addFromDraft => s.addFromDraft.2
  | .toggle id => (s.toggle id).2
  | .delete id => (s.delete id).2

def run (env : Env) (platform : PlatformKind) (calls : List StoreCall) : TodoStore :=
  calls.foldl (call env) (new platform)

theorem run_concat (env : Env) (platform : PlatformKind) (calls : List StoreCall) (c : StoreCall) :
    run env platform (calls ++ [c]) = (run env platform calls).call env c := by
  simp [run, List.foldl_append]

/-- A later state has at least the revision, and with the same revision the same tree. -/
def Counted (s t : TodoStore) : Prop := s.rev ≤ t.rev ∧ (s.rev = t.rev → s.view = t.view)

theorem Effect.counted {s t : TodoStore} (h : Effect s t) (hrev : s.rev + 1 < 2 ^ 64) :
    Counted s t := by
  cases h with
  | bumped rev =>
    rw [wrappingAdd_eq hrev] at rev
    exact ⟨by omega, fun he => by omega⟩
  | quiet rev shown => exact ⟨by omega, fun _ => view_congr shown⟩

theorem call_effect (env : Env) (s : TodoStore) (c : StoreCall) (hc : ∀ op, c ≠ .agent op) :
    Effect s (s.call env c) := by
  cases c with
  | agent op => exact absurd rfl (hc op)
  | setAppFocused focused => exact .quiet rfl (.refl s)
  | performKeybinding binding => exact performKeybinding_effect s binding
  | add title => exact add_effect s title
  | addFromDraft => exact addFromDraft_effect s
  | toggle id => exact toggle_effect s id
  | delete id => exact delete_effect s id
  | _ => exact .bumped rfl

theorem call_counted_iff (env : Env) (s : TodoStore) (c : StoreCall) (hrev : s.rev + 1 < 2 ^ 64) :
    Counted s (s.call env c) ↔ ∀ op, c = .agent op → s.movesPage op = false := by
  by_cases hc : ∃ op, c = .agent op
  · obtain ⟨op, rfl⟩ := hc
    simp only [StoreCall.agent.injEq, forall_eq']
    rcases dispatch_effect env s op with ⟨he, hm⟩ | ⟨hm, hr, hp⟩
    · exact ⟨fun _ => hm, fun _ => he.counted hrev⟩
    · refine ⟨fun h => absurd (page_eq_of_view_eq (h.2 hr.symm)).symm hp, fun h => ?_⟩
      rw [hm] at h
      cases h
  · have hno : ∀ op, c ≠ .agent op := fun op he => hc ⟨op, he⟩
    exact ⟨fun _ op he => absurd he (hno op), fun _ => (call_effect env s c hno).counted hrev⟩

/-- In a run the revision never decreases and equal revisions mean equal trees, exactly when no op
is a `nav.go` to the page not shown. -/
theorem revision_contract_iff (env : Env) (platform : PlatformKind) (calls : List StoreCall)
    (hrev : ∀ pre c, pre ++ [c] <+: calls → (run env platform pre).rev + 1 < 2 ^ 64) :
    (∀ pre suf, pre ++ suf <+: calls →
      Counted (run env platform pre) (run env platform (pre ++ suf))) ↔
    ∀ pre op, pre ++ [.agent op] <+: calls → (run env platform pre).movesPage op = false := by
  constructor
  · intro h pre op hpre
    have hc := h pre [.agent op] hpre
    rw [run_concat] at hc
    exact (call_counted_iff env _ _ (hrev pre _ hpre)).mp hc op rfl
  · intro h
    refine prefix_rel (R := Counted) (fun s => ⟨le_rfl, fun _ => rfl⟩) ?_ ?_
    · rintro s t u ⟨hst, hv⟩ ⟨htu, hw⟩
      exact ⟨hst.trans htu, fun he => (hv (by omega)).trans (hw (by omega))⟩
    · intro pre c hpre
      rw [run_concat]
      refine (call_counted_iff env _ c (hrev pre c hpre)).mpr ?_
      rintro op rfl
      exact h pre op hpre

theorem call_rev_le (env : Env) (s : TodoStore) (c : StoreCall) :
    (s.call env c).rev ≤ s.rev + 1 := by
  have effect_le : ∀ t, Effect s t → t.rev ≤ s.rev + 1 := by
    intro t h
    cases h with
    | bumped rev => exact rev ▸ wrappingAdd_le s.rev 1
    | quiet rev _ => omega
  by_cases hc : ∃ op, c = .agent op
  · obtain ⟨op, rfl⟩ := hc
    rcases dispatch_effect env s op with ⟨he, -⟩ | ⟨-, hr, -⟩
    · exact effect_le _ he
    · exact hr.le.trans (Nat.le_succ _)
  · exact effect_le _ (call_effect env s c fun op he => hc ⟨op, he⟩)

theorem run_rev_le (env : Env) (platform : PlatformKind) (calls : List StoreCall) :
    (run env platform calls).rev ≤ calls.length := by
  induction calls using List.reverseRecOn with
  | nil => exact le_rfl
  | append_singleton calls c ih =>
    rw [run_concat, List.length_append, List.length_singleton]
    exact (call_rev_le env _ c).trans (Nat.succ_le_succ ih)

def navGo (page : String) : StoreCall :=
  .agent (.invoke "nav.go" (.object [("page", .string page)]))

theorem revision_contract_navGo_todos :
    (∀ pre suf, pre ++ suf <+: [navGo "todos", .toggleSidebar] →
      Counted (run .bare .headless pre) (run .bare .headless (pre ++ suf))) ↔
    ∀ pre op, pre ++ [.agent op] <+: [navGo "todos", .toggleSidebar] →
      (run .bare .headless pre).movesPage op = false :=
  revision_contract_iff .bare .headless [navGo "todos", .toggleSidebar] fun pre c hpre => by
    have hrev := run_rev_le .bare .headless pre
    have hlen := hpre.length_le
    simp only [List.length_append, List.length_cons, List.length_nil] at hlen
    omega

theorem revision_contract_navGo_settings : ¬ ∀ (env : Env) (platform : PlatformKind)
    (calls : List StoreCall),
    (∀ pre c, pre ++ [c] <+: calls → (run env platform pre).rev + 1 < 2 ^ 64) →
    ∀ pre suf, pre ++ suf <+: calls →
      Counted (run env platform pre) (run env platform (pre ++ suf)) := by
  intro h
  have hc := h .bare .headless [navGo "settings"] (fun pre c hpre => by
    have hrev := run_rev_le .bare .headless pre
    have hlen := hpre.length_le
    simp only [List.length_append, List.length_cons, List.length_nil] at hlen
    omega) [] [navGo "settings"] (List.prefix_refl _)
  exact absurd (page_eq_of_view_eq (hc.2 rfl)) (by decide)

end TodoStore

end GpuiAgent
