import GpuiAgent.Framework.Register
import GpuiAgent.Todo.View

namespace GpuiAgent

open Framework

/-- What a call means to the list of to-dos: titles with their marks, and the one amendment is to
flip a mark. -/
abbrev ListChange : Type := RegisterChange (String × Bool) Unit

def flipMark (_ : Unit) (entry : String × Bool) : String × Bool := (entry.1, !entry.2)

namespace TodoStore

/-- The to-do under an id. -/
def todo? (s : TodoStore) (id : Nat) : Option Todo := s.items.find? fun item => item.id = id

/-- What the list of a store is for. -/
def register (s : TodoStore) : Register (String × Bool) where
  next := s.nextId
  entry := fun id => (s.todo? id).map fun item => (item.title, item.done)

def addChange (title : String) : ListChange :=
  if (trim title).isEmpty then .keep else .enter (trim title, false)

section Meaning

variable (s : TodoStore)

def clickChange (target : String) : ListChange :=
  if target = ids.ADD then addChange s.draft
  else match parseNumberedId "todo-toggle-" target with
    | some id => .amend id ()
    | none => match parseNumberedId "todo-delete-" target with
      | some id => .strike id
      | none => match parseNumberedId "todo-item-" target with
        | some id => .amend id ()
        | none => .keep

def keyChange (target key : String) : ListChange :=
  if (target = ids.INPUT ∨ target = ids.ADD) ∧ key = "Enter" then addChange s.draft else .keep

def invokeChange (name : String) (args : Json) : ListChange :=
  if name = "todo.add" then (((args.get "title").bind Json.asStr).map addChange).getD .keep
  else if name = "todo.toggle" then
    (((args.get "id").bind Json.asU64).map fun id => .amend id ()).getD .keep
  else if name = "todo.delete" then
    (((args.get "id").bind Json.asU64).map fun id => .strike id).getD .keep
  else .keep

def opChange (op : Op) : ListChange :=
  if op.isVirtualInput then .keep
  else match op with
    | .click target _ _ => s.clickChange target
    | .key target key _ _ => s.keyChange target key
    | .invoke name args => invokeChange name args
    | _ => .keep

def callChange : StoreCall → ListChange
  | .agent op => s.opChange op
  | .add title => addChange title
  | .addFromDraft => addChange s.draft
  | .toggle id => .amend id ()
  | .delete id => .strike id
  | _ => .keep

/-- What the calls of a run mean, each in the state it is made in. -/
def changes (env : Env) (s : TodoStore) : List StoreCall → List ListChange
  | [] => []
  | c :: calls => s.callChange c :: changes env (s.call env c) calls

end Meaning

section Find

variable {items : List Todo} {id n : Nat}

/-- Replacing the first to-do with an id changes what is found under that id only. -/
theorem find?_replaceF {item item' : Todo} (hid : item'.id = id)
    (h : items.find? (fun i => i.id = id) = some item) :
    (items.replaceF fun i => if i.id = id then some item' else none).find? (fun i => i.id = n) =
      if n = id then some item' else items.find? fun i => i.id = n := by
  induction items with
  | nil => cases h
  | cons i items ih =>
    rw [List.replaceF_cons]
    by_cases hi : i.id = id
    · rw [if_pos hi]
      dsimp only
      rw [List.find?_cons, List.find?_cons, hid, hi]
      by_cases hn : n = id
      · simp [hn]
      · simp [hn, Ne.symm hn]
    · rw [if_neg hi]
      rw [List.find?_cons, decide_eq_false hi] at h
      dsimp only
      rw [List.find?_cons, List.find?_cons, ih h]
      by_cases hn : n = id
      · simp [hn, hi]
      · simp [hn]

/-- Without the first to-do with an id, the only one, nothing is found under that id. -/
theorem find?_eraseP (hinc : (items.map Todo.id).Pairwise (· < ·)) :
    (items.eraseP fun i => i.id = id).find? (fun i => i.id = n) =
      if n = id then none else items.find? fun i => i.id = n := by
  induction items with
  | nil => simp
  | cons i items ih =>
    rw [List.map_cons, List.pairwise_cons] at hinc
    by_cases hi : i.id = id
    · rw [List.eraseP_cons_of_pos (by simpa using hi)]
      by_cases hn : n = id
      · rw [if_pos hn, List.find?_eq_none]
        intro j hj
        have hlt := hinc.1 j.id (List.mem_map_of_mem hj)
        simp only [decide_eq_true_eq]
        omega
      · rw [if_neg hn, List.find?_cons, decide_eq_false (by omega)]
    · rw [List.eraseP_cons_of_neg (by simpa using hi), List.find?_cons, List.find?_cons,
        ih hinc.2]
      by_cases hn : n = id
      · simp [hn, hi]
      · simp [hn]

end Find

section Refines

theorem register_congr {s t : TodoStore} (next : t.nextId = s.nextId) (items : t.items = s.items) :
    t.register = s.register := by
  simp only [register, todo?, next, items]

/-- There is room for another id, if the call takes one. -/
def Fits (s t : TodoStore) : Prop := t.nextId ≠ s.nextId → s.nextId + 1 < 2 ^ 64

variable (s : TodoStore)

theorem add_register (h : s.WellFormed) (title : String) (hfit : Fits s (s.add title).2) :
    (s.add title).2.register = s.register.apply flipMark (addChange title) := by
  unfold Fits add at hfit
  unfold add addChange
  dsimp only at hfit ⊢
  split_ifs at hfit ⊢ with hempty
  · rfl
  · have hnext := h.next
    have hone : s.nextId + 1 < 2 ^ 64 := by
      refine hfit ?_
      simp only [bumpRevision, wrappingAdd]
      omega
    simp only [register, todo?, bumpRevision, Register.apply, wrappingAdd_eq hone]
    congr 1
    funext id
    rw [List.find?_append]
    by_cases hid : id = s.nextId
    · subst hid
      have hnone : s.items.find? (fun item => item.id = s.nextId) = none := by
        rw [List.find?_eq_none]
        intro item hitem
        have hlt := h.below item hitem
        simp only [decide_eq_true_eq]
        omega
      simp [hnone]
    · rw [Function.update_of_ne hid]
      simp [Ne.symm hid]

theorem toggle_register (id : Nat) :
    (s.toggle id).2.register = s.register.apply flipMark (.amend id ()) := by
  unfold toggle
  cases hfind : s.items.find? fun item => item.id = id with
  | none =>
    have hentry : s.register.entry id = none := by simp [register, todo?, hfind]
    have hsame : Function.update s.register.entry id none = s.register.entry :=
      Function.update_eq_self_iff.mpr hentry.symm
    simp only [Register.apply, hentry, Option.map_none, hsame]
  | some item =>
    have hid : item.id = id := by simpa using List.find?_some hfind
    simp only [register, todo?, bumpRevision, Register.apply]
    congr 1
    funext n
    rw [@find?_replaceF _ _ _ _ { item with done := !item.done } hid hfind]
    by_cases hn : n = id
    · subst hn
      simp [hfind, flipMark]
    · rw [if_neg hn, Function.update_of_ne hn]

theorem delete_register (h : s.WellFormed) (id : Nat) :
    (s.delete id).2.register = s.register.apply flipMark (.strike id) := by
  unfold delete
  cases hfind : s.items.find? fun item => item.id = id with
  | none =>
    have hentry : s.register.entry id = none := by simp [register, todo?, hfind]
    have hsame : Function.update s.register.entry id none = s.register.entry :=
      Function.update_eq_self_iff.mpr hentry.symm
    simp only [Register.apply, hsame]
  | some item =>
    simp only [register, todo?, bumpRevision, Register.apply]
    congr 1
    funext n
    rw [find?_eraseP h.increasing]
    by_cases hn : n = id
    · subst hn
      simp
    · rw [if_neg hn, Function.update_of_ne hn]

/-- The buttons around the list change nothing in it. -/
theorem clickChange_frame {target : String} (h : target ∈ [ids.NAV_TOGGLE, ids.NAV_TODOS,
    ids.NAV_SETTINGS, ids.SETTINGS_CONFIRM_DELETE]) : s.clickChange target = .keep := by
  have hframe : ∀ target ∈ [ids.NAV_TOGGLE, ids.NAV_TODOS, ids.NAV_SETTINGS,
      ids.SETTINGS_CONFIRM_DELETE], target ≠ ids.ADD ∧
        parseNumberedId "todo-toggle-" target = none ∧
        parseNumberedId "todo-delete-" target = none ∧
        parseNumberedId "todo-item-" target = none := by decide
  obtain ⟨hadd, htoggle, hdelete, hitem⟩ := hframe target h
  rw [clickChange, if_neg hadd, htoggle, hdelete, hitem]

theorem click_register (h : s.WellFormed) (target : String) (hfit : Fits s (s.click target).2) :
    (s.click target).2.register = s.register.apply flipMark (s.clickChange target) := by
  by_cases hframe : target ∈ [ids.NAV_TOGGLE, ids.NAV_TODOS, ids.NAV_SETTINGS,
      ids.SETTINGS_CONFIRM_DELETE]
  · rw [s.clickChange_frame hframe]
    simp only [List.mem_cons, List.not_mem_nil, or_false] at hframe
    rcases hframe with rfl | rfl | rfl | rfl
    · rw [click, if_pos rfl]
      exact register_congr rfl rfl
    · rw [click, if_neg (by decide), if_pos rfl]
      exact register_congr rfl rfl
    · rw [click, if_neg (by decide), if_neg (by decide), if_pos rfl]
      exact register_congr rfl rfl
    · rw [click, if_neg (by decide), if_neg (by decide), if_neg (by decide), if_pos rfl]
      exact register_congr rfl rfl
  · simp only [List.mem_cons, List.not_mem_nil, or_false, not_or] at hframe
    obtain ⟨htoggle, htodos, hsettings, hconfirm⟩ := hframe
    rw [click, if_neg htoggle, if_neg htodos, if_neg hsettings, if_neg hconfirm] at hfit ⊢
    unfold clickChange
    split_ifs at hfit ⊢ with hadd
    · rw [withTodo_snd] at hfit ⊢
      exact s.add_register h s.draft hfit
    · cases parseNumberedId "todo-toggle-" target with
      | some id => exact s.toggle_register id
      | none =>
        cases parseNumberedId "todo-delete-" target with
        | some id => exact s.delete_register h id
        | none =>
          cases parseNumberedId "todo-item-" target with
          | some id => exact s.toggle_register id
          | none => exact register_congr rfl rfl

theorem key_register (h : s.WellFormed) (target k : String) (hfit : Fits s (s.key target k).2) :
    (s.key target k).2.register = s.register.apply flipMark (keyChange s target k) := by
  unfold key at hfit ⊢
  unfold keyChange
  split_ifs at hfit ⊢ with henter hback
  · rw [withTodo_snd] at hfit ⊢
    exact s.add_register h s.draft hfit
  · exact register_congr rfl rfl
  · exact register_congr rfl rfl

theorem invoke_register (h : s.WellFormed) (name : String) (args : Json)
    (hfit : Fits s (s.invoke name args).2) :
    (s.invoke name args).2.register = s.register.apply flipMark (invokeChange name args) := by
  unfold invokeChange
  by_cases hadd : name = "todo.add"
  · subst hadd
    rw [if_pos rfl]
    rw [invoke] at hfit ⊢
    generalize (args.get "title").bind Json.asStr = title at hfit ⊢
    cases title with
    | some title =>
      dsimp only at hfit ⊢
      rw [withTodo_snd] at hfit ⊢
      rw [Option.map_some, Option.getD_some]
      exact s.add_register h title hfit
    | none => exact register_congr rfl rfl
  by_cases htoggle : name = "todo.toggle"
  · subst htoggle
    rw [if_neg (by decide), if_pos rfl]
    rw [invoke, argId]
    cases (args.get "id").bind Json.asU64 with
    | some id => exact s.toggle_register id
    | none => exact register_congr rfl rfl
  by_cases hdelete : name = "todo.delete"
  · subst hdelete
    rw [if_neg (by decide), if_neg (by decide), if_pos rfl]
    rw [invoke, argId]
    cases (args.get "id").bind Json.asU64 with
    | some id => exact s.delete_register h id
    | none => exact register_congr rfl rfl
  rw [if_neg hadd, if_neg htoggle, if_neg hdelete]
  have hsame : (s.invoke name args).2.nextId = s.nextId ∧
      (s.invoke name args).2.items = s.items := by
    unfold invoke
    split
    · exact absurd rfl hadd
    · exact absurd rfl htoggle
    · exact absurd rfl hdelete
    · exact ⟨rfl, rfl⟩
    · split <;> exact ⟨rfl, rfl⟩
    · exact ⟨rfl, rfl⟩
    · exact ⟨rfl, rfl⟩
  exact register_congr hsame.1 hsame.2

theorem performKeybinding_register (binding : String) :
    (s.performKeybinding binding).2.register = s.register := by
  unfold performKeybinding
  split_ifs <;> rfl

theorem fireKeybinding_register (op : Op) : (s.fireKeybinding op).2.register = s.register := by
  unfold fireKeybinding
  split_ifs
  · rfl
  · split
    · next binding _ _ _ activate =>
      split_ifs
      · exact performKeybinding_register { s with appFocused := true } binding
      · exact performKeybinding_register s binding
    · rfl

theorem dispatch_register (env : Env) (h : s.WellFormed) (op : Op)
    (hfit : Fits s (s.dispatch env op).2) :
    (s.dispatch env op).2.register = s.register.apply flipMark (s.opChange op) := by
  by_cases hv : op.isVirtualInput = true
  · unfold dispatch opChange
    rw [if_pos hv, if_pos hv]
    rfl
  · unfold opChange
    rw [if_neg hv]
    cases op with
    | invoke name args =>
      obtain ⟨events, he⟩ := dispatch_invoke env s name args
      rw [he] at hfit ⊢
      exact s.invoke_register h name args hfit
    | click target delivery fp =>
      rw [dispatch, if_neg hv] at hfit ⊢
      exact s.click_register h target hfit
    | type target text delivery fp =>
      rw [dispatch, if_neg hv]
      unfold typeInto
      split_ifs <;> exact register_congr rfl rfl
    | setValue target value fp =>
      rw [dispatch, if_neg hv]
      unfold setValue
      split_ifs <;> exact register_congr rfl rfl
    | key target k delivery fp =>
      rw [dispatch, if_neg hv] at hfit ⊢
      exact s.key_register h target k hfit
    | keybinding binding chord scope confirm activate =>
      rw [dispatch, if_neg hv]
      exact s.fireKeybinding_register _
    | _ => rfl

/-- Every call does to the list what it means. -/
theorem call_register (env : Env) (h : s.WellFormed) (c : StoreCall)
    (hfit : Fits s (s.call env c)) :
    (s.call env c).register = s.register.apply flipMark (s.callChange c) := by
  cases c with
  | agent op => exact s.dispatch_register env h op hfit
  | performKeybinding binding => exact s.performKeybinding_register binding
  | add title => exact s.add_register h title hfit
  | addFromDraft => exact s.add_register h s.draft hfit
  | toggle id => exact s.toggle_register id
  | delete id => exact s.delete_register h id
  | _ => rfl

end Refines

/-- A run does to the list what its calls mean one after another. -/
theorem foldl_register {env : Env} (calls : List StoreCall) : ∀ {s : TodoStore}, s.WellFormed →
    s.nextId + adds env s calls < 2 ^ 64 →
      (calls.foldl (call env) s).register = s.register.replay flipMark (changes env s calls) := by
  induction calls with
  | nil => exact fun _ _ => rfl
  | cons c calls ih =>
    intro s h hroom
    rw [adds] at hroom
    have hfit : Fits s (s.call env c) := by
      intro hne
      rw [if_neg hne] at hroom
      omega
    have hstep := call_items env s c
    have hrest : (s.call env c).nextId + adds env (s.call env c) calls < 2 ^ 64 := by
      cases hstep with
      | kept next items =>
        rw [if_pos next] at hroom
        omega
      | added title nonempty next items =>
        have hle := wrappingAdd_le s.nextId 1
        split_ifs at hroom <;> omega
    rw [List.foldl_cons, ih (h.step hstep hfit) hrest, s.call_register env h c hfit]
    rfl

theorem adds_append (env : Env) (suf pre : List StoreCall) : ∀ s : TodoStore,
    adds env s (pre ++ suf) = adds env s pre + adds env (pre.foldl (call env) s) suf := by
  induction pre with
  | nil => exact fun s => (Nat.zero_add _).symm
  | cons c pre ih =>
    intro s
    rw [List.cons_append, adds, adds, ih, List.foldl_cons, Nat.add_assoc]

/-- Ids are taken by the calls that add a to-do. -/
theorem nextId_foldl_le {env : Env} (calls : List StoreCall) : ∀ s : TodoStore,
    (calls.foldl (call env) s).nextId ≤ s.nextId + adds env s calls := by
  induction calls with
  | nil => exact fun _ => le_rfl
  | cons c calls ih =>
    intro s
    have hrest := ih (s.call env c)
    have hstep : (s.call env c).nextId ≤ s.nextId + 1 := by
      cases call_items env s c with
      | kept next items => omega
      | added title nonempty next items => exact next ▸ wrappingAdd_le s.nextId 1
    rw [List.foldl_cons, adds]
    split_ifs with hsame <;> omega

section Life

variable {s : TodoStore} {id : Nat}

theorem todo?_eq (s : TodoStore) (id : Nat) :
    s.todo? id = (s.register.entry id).map fun entry => ⟨id, entry.1, entry.2⟩ := by
  unfold register
  dsimp only
  rw [Option.map_map]
  cases hfind : s.todo? id with
  | none => rfl
  | some item =>
    have hid : item.id = id := by simpa using List.find?_some hfind
    rw [Option.map_some, ← hid]
    rfl

theorem WellFormed.fresh (h : s.WellFormed) : s.register.Fresh := by
  intro id hid
  have hnone : s.todo? id = none := by
    refine List.find?_eq_none.mpr fun item hitem => ?_
    have hlt := h.below item hitem
    have hid : s.nextId ≤ id := hid
    simp only [decide_eq_true_eq]
    omega
  simp [register, hnone]

theorem amended_flipMark (kinds : List Unit) : ∀ entry : String × Bool,
    Register.amended flipMark kinds entry =
      (entry.1, entry.2 ^^ decide (kinds.length % 2 = 1)) := by
  induction kinds with
  | nil => exact fun entry => by simp [Register.amended]
  | cons kind kinds ih =>
    intro entry
    have hcons : Register.amended flipMark (kind :: kinds) entry =
        Register.amended flipMark kinds (flipMark kind entry) := rfl
    rw [hcons, ih, flipMark, List.length_cons]
    rcases Nat.mod_two_eq_zero_or_one kinds.length with h | h
    · have hsucc : (kinds.length + 1) % 2 = 1 := by omega
      simp [h, hsucc]
    · have hsucc : (kinds.length + 1) % 2 = 0 := by omega
      simp [h, hsucc]

theorem length_amendments (id : Nat) (log : List ListChange) :
    (Register.amendments id log).length = log.count (.amend id ()) := by
  induction log with
  | nil => rfl
  | cons c log ih =>
    rw [List.count_cons, ← ih]
    cases c with
    | amend n kind =>
      by_cases hn : n = id
      · simp [Register.amendments, hn]
      · simp [Register.amendments, hn]
    | _ => simp [Register.amendments]

end Life

/-- An id names one to-do for good. In whatever happens to a store with fewer adds than there are
ids, an id not given out yet names nothing; one that was given out keeps its to-do, under its title
and with its mark flipped by each toggle, until a delete, and names nothing ever after. -/
theorem todo_lifecycle (env : Env) (platform : PlatformKind) (pre suf : List StoreCall)
    (hadds : adds env (new platform) (pre ++ suf) < 2 ^ 64 - 1) (id : Nat) :
    let before := run env platform pre
    let log := changes env before suf
    (before.nextId ≤ id → before.todo? id = none) ∧
    (id < before.nextId → .strike id ∈ log → (run env platform (pre ++ suf)).todo? id = none) ∧
    (id < before.nextId → .strike id ∉ log → (run env platform (pre ++ suf)).todo? id =
      (before.todo? id).map fun item =>
        { item with done := item.done ^^ decide (log.count (.amend id ()) % 2 = 1) }) := by
  rw [adds_append] at hadds
  have hnew : (new platform).nextId = 1 := rfl
  have hnext := @nextId_foldl_le env pre (new platform)
  have hbefore : (run env platform pre).WellFormed := run_wellFormed (by omega)
  have hreplay : (run env platform (pre ++ suf)).register =
      (run env platform pre).register.replay flipMark (changes env (run env platform pre) suf) := by
    rw [run, List.foldl_append]
    exact foldl_register suf hbefore (by omega)
  refine ⟨fun hid => ?_, fun hid hstrike => ?_, fun hid hstrike => ?_⟩
  · rw [todo?_eq, hbefore.fresh id hid]
    rfl
  · rw [todo?_eq, hreplay, (Register.entry_replay _ hid).1 hstrike]
    rfl
  · rw [todo?_eq, hreplay, (Register.entry_replay _ hid).2 hstrike, todo?_eq (run env platform pre),
      Option.map_map, Option.map_map]
    congr 1
    funext entry
    rw [Function.comp_apply, amended_flipMark, length_amendments]
    rfl

/-- A click on the first of two to-dos, while the second is deleted. -/
def clickAndDelete : List StoreCall :=
  [.agent (.click (ids.toggle 1) .semantic none), .delete 2, .toggleSidebar]

theorem todo_lifecycle_clickAndDelete :
    (run .bare .headless ([.add "milk", .add "tea"] ++ clickAndDelete)).todo? 1 =
        some ⟨1, "milk", true⟩ ∧
      (run .bare .headless ([.add "milk", .add "tea"] ++ clickAndDelete)).todo? 2 = none := by
  have hadds : adds .bare (new .headless) ([.add "milk", .add "tea"] ++ clickAndDelete) <
      2 ^ 64 - 1 := (adds_le_length .bare _ _).trans_lt (by decide)
  have hlog : changes .bare (run .bare .headless [.add "milk", .add "tea"]) clickAndDelete =
      [.amend 1 (), .strike 2, .keep] := by decide +kernel
  have hmilk := (todo_lifecycle .bare .headless _ clickAndDelete hadds 1).2.2
    (by decide +kernel) (by rw [hlog]; decide)
  have htea := (todo_lifecycle .bare .headless _ clickAndDelete hadds 2).2.1
    (by decide +kernel) (by rw [hlog]; decide)
  refine ⟨hmilk.trans ?_, htea⟩
  rw [hlog]
  decide +kernel

end TodoStore

end GpuiAgent
