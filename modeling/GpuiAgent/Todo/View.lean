import GpuiAgent.Todo.Revision

namespace GpuiAgent

open Framework Framework.RoseTree

/-- What a client reads off a snapshot. -/
structure TodoView where
  items : List Todo
  draft : String
  page : Page
  confirmDelete : Bool
  sidebarOpen : Bool
  deriving DecidableEq

/-- The item that a node shows. -/
def TodoView.itemOf (n : NodeFields) : Option Todo :=
  (parseNumberedId "todo-item-" n.id).map fun id => ⟨id, n.name, n.checked.getD false⟩

def TodoView.fromTree (tree : UiTree) : TodoView where
  page := if (tree.find ids.PAGE_SETTINGS).isSome then .settings else .todos
  draft := ((tree.find ids.INPUT).bind fun node => node.label.value).getD ""
  confirmDelete :=
    ((tree.find ids.SETTINGS_CONFIRM_DELETE).bind fun node => node.label.checked).getD false
  sidebarOpen := ((tree.find ids.NAV).map fun node => node.label.visible).getD true
  items := (tree.rows.filterMap fun row => itemOf row.2).mergeSort fun a b => a.id ≤ b.id

namespace TodoStore

/-- Ids increase and are below the next one; titles are trimmed and not empty. -/
structure WellFormed (s : TodoStore) : Prop where
  increasing : (s.items.map Todo.id).Pairwise (· < ·)
  below : ∀ item ∈ s.items, item.id < s.nextId
  titles : ∀ item ∈ s.items, item.title ≠ "" ∧ trim item.title = item.title
  next : s.nextId < 2 ^ 64

/-- What a call does to the items: it keeps some of them up to `done`, or adds one. -/
inductive ItemsStep (s t : TodoStore) : Prop where
  | kept (next : t.nextId = s.nextId)
      (items : (t.items.map fun i => (i.id, i.title)).Sublist
        (s.items.map fun i => (i.id, i.title)))
  | added (title : String) (nonempty : trim title ≠ "")
      (next : t.nextId = wrappingAdd s.nextId 1)
      (items : t.items = s.items ++ [⟨s.nextId, trim title, false⟩])

theorem ItemsStep.same {s t : TodoStore} (next : t.nextId = s.nextId) (items : t.items = s.items) :
    ItemsStep s t := by
  refine .kept next ?_
  rw [items]

theorem WellFormed.step {s t : TodoStore} (h : s.WellFormed) (hstep : ItemsStep s t)
    (hfit : t.nextId ≠ s.nextId → s.nextId + 1 < 2 ^ 64) : t.WellFormed := by
  cases hstep with
  | kept next items =>
    have hids := items.map Prod.fst
    rw [List.map_map, List.map_map] at hids
    have hmem : ∀ item ∈ t.items, ∃ item' ∈ s.items, item'.id = item.id ∧ item'.title = item.title := by
      intro item hitem
      have := items.subset (List.mem_map_of_mem (f := fun i => (i.id, i.title)) hitem)
      simpa using this
    refine ⟨h.increasing.sublist hids, ?_, ?_, next ▸ h.next⟩
    · intro item hitem
      obtain ⟨item', hitem', hid, -⟩ := hmem item hitem
      rw [next, ← hid]
      exact h.below item' hitem'
    · intro item hitem
      obtain ⟨item', hitem', -, htitle⟩ := hmem item hitem
      rw [← htitle]
      exact h.titles item' hitem'
  | added title nonempty next items =>
    have hnext := h.next
    have hlt : s.nextId < t.nextId ∧ t.nextId < 2 ^ 64 := by
      have hne : t.nextId ≠ s.nextId := by
        rw [next, wrappingAdd]
        omega
      have hone := hfit hne
      rw [next, wrappingAdd_eq hone]
      omega
    refine ⟨?_, ?_, ?_, hlt.2⟩
    · rw [items, List.map_append, List.pairwise_append]
      refine ⟨h.increasing, List.pairwise_singleton _ _, ?_⟩
      simpa using h.below
    · rw [items, List.forall_mem_append]
      exact ⟨fun item hitem => (h.below item hitem).trans hlt.1, by simpa using hlt.1⟩
    · rw [items, List.forall_mem_append]
      exact ⟨h.titles, by simp [nonempty]⟩

/-- Replacing the first match by one that looks the same leaves what is seen of the list. -/
theorem map_replaceF {α β : Type} {p : α → Prop} [DecidablePred p] {g : α → β} {a b : α}
    {xs : List α} (h : xs.find? (fun x => p x) = some a) (hg : g b = g a) :
    (xs.replaceF fun x => if p x then some b else none).map g = xs.map g := by
  induction xs with
  | nil => rfl
  | cons x xs ih =>
    rw [List.find?_cons] at h
    rw [List.replaceF_cons]
    by_cases hx : p x
    · rw [decide_eq_true hx] at h
      obtain rfl := Option.some_inj.mp h
      simp [hx, hg]
    · rw [decide_eq_false hx] at h
      simp [hx, ih h]

section Calls

variable (s : TodoStore)

theorem performKeybinding_items (binding : String) :
    ItemsStep s (s.performKeybinding binding).2 := by
  unfold performKeybinding
  split_ifs
  · exact .same rfl rfl
  · exact .same rfl rfl
  · exact .same rfl rfl
  · exact .same rfl rfl

theorem fireKeybinding_items (op : Op) : ItemsStep s (s.fireKeybinding op).2 := by
  unfold fireKeybinding
  split_ifs
  · exact .same rfl rfl
  · split
    · next binding _ _ _ activate =>
      split_ifs
      · cases performKeybinding_items { s with appFocused := true } binding with
        | kept next items => exact .kept next items
        | added title nonempty next items => exact .added title nonempty next items
      · exact performKeybinding_items s binding
    · exact .same rfl rfl

theorem add_items (title : String) : ItemsStep s (s.add title).2 := by
  unfold add
  simp only
  split_ifs with hempty
  · exact .same rfl rfl
  · have hne : trim title ≠ "" := by simpa using hempty
    exact .added title hne rfl rfl

theorem addFromDraft_items : ItemsStep s s.addFromDraft.2 := add_items s s.draft

theorem toggle_items (id : Nat) : ItemsStep s (s.toggle id).2 := by
  unfold toggle
  cases hfind : s.items.find? fun item => item.id = id with
  | none => exact .same rfl rfl
  | some item =>
    have hmap : (s.items.replaceF fun i =>
        if i.id = id then some { item with done := !item.done } else none).map
          (fun i => (i.id, i.title)) = s.items.map fun i => (i.id, i.title) :=
      map_replaceF hfind rfl
    refine .kept rfl ?_
    change (List.map _ (s.items.replaceF _)).Sublist _
    rw [hmap]

theorem delete_items (id : Nat) : ItemsStep s (s.delete id).2 := by
  unfold delete
  split
  · exact .same rfl rfl
  · exact .kept rfl (List.eraseP_sublist.map _)

theorem click_items (target : String) : ItemsStep s (s.click target).2 := by
  unfold click
  split_ifs
  · exact .same rfl rfl
  · exact .same rfl rfl
  · exact .same rfl rfl
  · exact .same rfl rfl
  · rw [withTodo_snd]
    exact addFromDraft_items s
  · split
    · rw [withTodo_snd]
      exact toggle_items s _
    · split
      · rw [withTodo_snd]
        exact delete_items s _
      · split
        · rw [withTodo_snd]
          exact toggle_items s _
        · exact .same rfl rfl

theorem key_items (target k : String) : ItemsStep s (s.key target k).2 := by
  unfold key
  split_ifs
  · rw [withTodo_snd]
    exact addFromDraft_items s
  · exact .same rfl rfl
  · exact .same rfl rfl

theorem invoke_items (name : String) (args : Json) : ItemsStep s (s.invoke name args).2 := by
  unfold invoke
  split
  · split
    · rw [withTodo_snd]
      exact add_items s _
    · exact .same rfl rfl
  · split
    · rw [withTodo_snd]
      exact toggle_items s _
    · exact .same rfl rfl
  · split
    · rw [withTodo_snd]
      exact delete_items s _
    · exact .same rfl rfl
  · exact .same rfl rfl
  · split
    · exact .same rfl rfl
    · exact .same rfl rfl
    · exact .same rfl rfl
    · exact .same rfl rfl
  · exact .same rfl rfl
  · exact .same rfl rfl

end Calls

theorem ItemsStep.withEvents {s t : TodoStore} (h : ItemsStep s t) (events : EventRing) :
    ItemsStep s { t with events } := by
  cases h with
  | kept next items => exact .kept next items
  | added title nonempty next items => exact .added title nonempty next items

theorem dispatch_items (env : Env) (s : TodoStore) (op : Op) :
    ItemsStep s (s.dispatch env op).2 := by
  by_cases hv : op.isVirtualInput = true
  · unfold dispatch
    rw [if_pos hv]
    exact .same rfl rfl
  · cases op with
    | invoke name args =>
      obtain ⟨events, he⟩ := dispatch_invoke env s name args
      rw [he]
      exact (invoke_items s name args).withEvents events
    | click target delivery fp =>
      rw [dispatch, if_neg hv]
      exact click_items s target
    | type target text delivery fp =>
      rw [dispatch, if_neg hv]
      unfold typeInto
      split_ifs
      · exact .same rfl rfl
      · exact .same rfl rfl
    | setValue target value fp =>
      rw [dispatch, if_neg hv]
      unfold setValue
      split_ifs
      · exact .same rfl rfl
      · exact .same rfl rfl
    | key target k delivery fp =>
      rw [dispatch, if_neg hv]
      exact key_items s target k
    | keybinding binding chord scope confirm activate =>
      rw [dispatch, if_neg hv]
      exact fireKeybinding_items s _
    | _ => exact .same rfl rfl

theorem call_items (env : Env) (s : TodoStore) (c : StoreCall) : ItemsStep s (s.call env c) := by
  cases c with
  | agent op => exact dispatch_items env s op
  | performKeybinding binding => exact performKeybinding_items s binding
  | add title => exact add_items s title
  | addFromDraft => exact addFromDraft_items s
  | toggle id => exact toggle_items s id
  | delete id => exact delete_items s id
  | _ => exact .same rfl rfl

/-- How many calls of a run add an item. -/
def adds (env : Env) (s : TodoStore) : List StoreCall → Nat
  | [] => 0
  | c :: calls =>
    (if (s.call env c).nextId = s.nextId then 0 else 1) + adds env (s.call env c) calls

theorem WellFormed.foldl {env : Env} {calls : List StoreCall} : ∀ {s : TodoStore}, s.WellFormed →
    s.nextId + adds env s calls < 2 ^ 64 → (calls.foldl (call env) s).WellFormed := by
  induction calls with
  | nil => exact fun h _ => h
  | cons c calls ih =>
    intro s h hfit
    rw [adds] at hfit
    have hstep := call_items env s c
    have hcall : (s.call env c).WellFormed := by
      refine h.step hstep fun hne => ?_
      rw [if_neg hne] at hfit
      omega
    refine ih hcall ?_
    cases hstep with
    | kept next items =>
      rw [if_pos next] at hfit
      omega
    | added title nonempty next items =>
      have hle := wrappingAdd_le s.nextId 1
      split_ifs at hfit <;> omega

theorem adds_le_length (env : Env) (calls : List StoreCall) : ∀ s : TodoStore,
    adds env s calls ≤ calls.length := by
  induction calls with
  | nil => exact fun _ => le_rfl
  | cons c calls ih =>
    intro s
    have hrest := ih (s.call env c)
    rw [adds, List.length_cons]
    split_ifs <;> omega

theorem new_wellFormed (platform : PlatformKind) : (new platform).WellFormed :=
  ⟨List.Pairwise.nil, fun _ h => absurd h List.not_mem_nil,
    fun _ h => absurd h List.not_mem_nil, show 1 < 2 ^ 64 by decide⟩

theorem run_wellFormed {env : Env} {platform : PlatformKind} {calls : List StoreCall}
    (hadds : adds env (new platform) calls < 2 ^ 64 - 1) :
    (run env platform calls).WellFormed := by
  refine (new_wellFormed platform).foldl ?_
  have hnext : (new platform).nextId = 1 := rfl
  omega

section Ids

theorem parseNumberedId_append (pre : String) {n : Nat} (h : n < 2 ^ 64) :
    parseNumberedId pre (pre ++ toString n) = some n := by
  have hstrip : stripPrefix (pre ++ toString n) pre = some (toString n) := by
    rw [stripPrefix, if_pos (startsWith_append pre _), String.toList_append, List.drop_left,
      String.ofList_toList]
  rw [parseNumberedId, hstrip]
  exact parseU64_toString h

theorem parseNumberedId_of_ne {pre s : String} (h : startsWith s pre = false) :
    parseNumberedId pre s = none := by
  rw [parseNumberedId, stripPrefix, h]
  rfl

/-- The kind and the number of an item's node. -/
def nodeNumber (id : String) : Option (Nat × Nat) :=
  ((parseNumberedId "todo-item-" id).map fun n => (0, n)) <|>
    ((parseNumberedId "todo-toggle-" id).map fun n => (1, n)) <|>
      (parseNumberedId "todo-delete-" id).map fun n => (2, n)

theorem startsWith_numbered_false {pre pre' : String} (n : Nat)
    (h : startsWith pre pre' = false ∧ startsWith pre' pre = false) :
    startsWith (pre ++ toString n) pre' = false := by
  by_contra hs
  rcases startsWith_append_cases (Bool.not_eq_false _ ▸ hs) with hp | hp
  · rw [h.1] at hp
    cases hp
  · rw [h.2] at hp
    cases hp

theorem parseNumberedId_item {n : Nat} (h : n < 2 ^ 64) :
    parseNumberedId "todo-item-" (ids.item n) = some n :=
  parseNumberedId_append "todo-item-" h

theorem parseNumberedId_item_toggle (n : Nat) :
    parseNumberedId "todo-item-" (ids.toggle n) = none :=
  parseNumberedId_of_ne (startsWith_numbered_false n (by decide))

theorem parseNumberedId_item_delete (n : Nat) :
    parseNumberedId "todo-item-" (ids.delete n) = none :=
  parseNumberedId_of_ne (startsWith_numbered_false n (by decide))

theorem nodeNumber_item {n : Nat} (h : n < 2 ^ 64) : nodeNumber (ids.item n) = some (0, n) := by
  rw [nodeNumber, parseNumberedId_item h]
  rfl

theorem nodeNumber_toggle {n : Nat} (h : n < 2 ^ 64) :
    nodeNumber (ids.toggle n) = some (1, n) := by
  have hparse : parseNumberedId "todo-toggle-" (ids.toggle n) = some n :=
    parseNumberedId_append "todo-toggle-" h
  rw [nodeNumber, parseNumberedId_item_toggle, hparse]
  rfl

theorem nodeNumber_delete {n : Nat} (h : n < 2 ^ 64) :
    nodeNumber (ids.delete n) = some (2, n) := by
  have htoggle : parseNumberedId "todo-toggle-" (ids.delete n) = none :=
    parseNumberedId_of_ne (startsWith_numbered_false n (by decide))
  have hparse : parseNumberedId "todo-delete-" (ids.delete n) = some n :=
    parseNumberedId_append "todo-delete-" h
  rw [nodeNumber, parseNumberedId_item_delete, htoggle, hparse]
  rfl

/-- The ids of an item's nodes. -/
def itemIds (item : Todo) : List String := [ids.item item.id, ids.toggle item.id, ids.delete item.id]

theorem ids_map_itemNode (items : List Todo) :
    Forest.keys NodeFields.id (items.map itemNode) = items.flatMap itemIds := by
  induction items with
  | nil => rfl
  | cons item items ih =>
    rw [List.map_cons, List.flatMap_cons, ← ih]
    simp [itemNode, itemIds, UiNode.withChild, UiNode.withChecked, UiNode.new]

/-- The ids of the list on the Todos page. -/
def listIds (s : TodoStore) : List String :=
  if s.items.isEmpty then [ids.EMPTY] else s.items.flatMap itemIds

theorem ids_listChildren (s : TodoStore) :
    Forest.keys NodeFields.id s.listChildren = s.listIds := by
  unfold listChildren listIds
  split_ifs
  · rfl
  · exact ids_map_itemNode s.items

/-- The ids of both pages outside the list. -/
def frameIds : List String :=
  [ids.WINDOW, ids.NAV_TOGGLE, ids.NAV, ids.NAV_TODOS, ids.NAV_SETTINGS]

theorem ids_tree (s : TodoStore) : s.tree.ids = frameIds ++ match s.page with
    | .todos =>
      [ids.PAGE_TODOS, ids.INPUT, ids.ADD, ids.LIST_SCROLL, ids.LIST] ++ s.listIds ++ [ids.STATUS]
    | .settings => [ids.PAGE_SETTINGS, ids.SETTINGS_CONFIRM_DELETE] := by
  rw [← ids_listChildren]
  cases hs : s.sidebarOpen <;> cases hp : s.page <;>
    simp [UiTree.ids, tree, hs, hp, navNode, pageNode, todosPage, settingsPage, UiNode.withChild,
      UiNode.new, UiNode.withValue, UiNode.withChecked, UiNode.withChildren,
      UiNode.withVisibleDeep, UiNode.hideAll, frameIds]

theorem nodeNumber_itemIds {item : Todo} (h : item.id < 2 ^ 64) {x : String}
    (hx : x ∈ itemIds item) : ∃ k, nodeNumber x = some (k, item.id) := by
  simp only [itemIds, List.mem_cons, List.not_mem_nil, or_false] at hx
  rcases hx with rfl | rfl | rfl
  · exact ⟨0, nodeNumber_item h⟩
  · exact ⟨1, nodeNumber_toggle h⟩
  · exact ⟨2, nodeNumber_delete h⟩

/-- The nodes of different items, and of one item, have different ids. -/
theorem nodup_itemIds {items : List Todo} (hinc : (items.map Todo.id).Pairwise (· < ·))
    (hfit : ∀ item ∈ items, item.id < 2 ^ 64) : (items.flatMap itemIds).Nodup := by
  rw [List.nodup_flatMap]
  constructor
  · intro item hitem
    have hlt := hfit item hitem
    refine List.Nodup.of_map nodeNumber ?_
    simp [itemIds, nodeNumber_item hlt, nodeNumber_toggle hlt, nodeNumber_delete hlt]
  · rw [List.pairwise_map] at hinc
    refine hinc.imp_of_mem ?_
    intro a b ha hb hlt x hxa hxb
    obtain ⟨k, hk⟩ := nodeNumber_itemIds (hfit a ha) hxa
    obtain ⟨l, hl⟩ := nodeNumber_itemIds (hfit b hb) hxb
    have hpair := Option.some_inj.mp (hk.symm.trans hl)
    have hid : a.id = b.id := congrArg Prod.snd hpair
    omega

theorem WellFormed.fits {s : TodoStore} (h : s.WellFormed) : ∀ item ∈ s.items, item.id < 2 ^ 64 :=
  fun item hitem => (h.below item hitem).trans h.next

/-- The list's ids are not those of the rest of the window. -/
theorem WellFormed.listIds_cases {s : TodoStore} (h : s.WellFormed) {x : String}
    (hx : x ∈ s.listIds) : x = ids.EMPTY ∨ nodeNumber x ≠ none := by
  rw [listIds] at hx
  split_ifs at hx
  · exact Or.inl (List.mem_singleton.mp hx)
  · obtain ⟨item, hitem, hx⟩ := List.mem_flatMap.mp hx
    obtain ⟨k, hk⟩ := nodeNumber_itemIds (h.fits item hitem) hx
    exact Or.inr (hk ▸ Option.some_ne_none _)

theorem nodeNumber_static : ∀ x ∈ frameIds ++ [ids.PAGE_TODOS, ids.INPUT, ids.ADD,
    ids.LIST_SCROLL, ids.LIST, ids.STATUS, ids.PAGE_SETTINGS, ids.SETTINGS_CONFIRM_DELETE],
    nodeNumber x = none ∧ x ≠ ids.EMPTY := by
  decide

/-- Every id of a snapshot is unique. -/
theorem WellFormed.nodup_ids {s : TodoStore} (h : s.WellFormed) : s.tree.ids.Nodup := by
  rw [ids_tree]
  cases s.page with
  | settings =>
    show (frameIds ++ [ids.PAGE_SETTINGS, ids.SETTINGS_CONFIRM_DELETE]).Nodup
    decide
  | todos =>
    dsimp only
    have hperm : (frameIds ++ ([ids.PAGE_TODOS, ids.INPUT, ids.ADD, ids.LIST_SCROLL, ids.LIST] ++
        s.listIds ++ [ids.STATUS])).Perm
          ((frameIds ++ [ids.PAGE_TODOS, ids.INPUT, ids.ADD, ids.LIST_SCROLL, ids.LIST,
            ids.STATUS]) ++ s.listIds) := by
      rw [List.append_assoc, List.append_assoc]
      refine (List.Perm.append_left frameIds ?_)
      exact List.Perm.append_left [_, _, _, _, _] List.perm_append_comm
    have hlist : s.listIds.Nodup := by
      rw [listIds]
      split_ifs
      · exact List.nodup_singleton _
      · exact nodup_itemIds h.increasing h.fits
    rw [hperm.nodup_iff, List.nodup_append]
    refine ⟨by decide, hlist, ?_⟩
    rintro x hx y hy rfl
    obtain ⟨hnone, hempty⟩ := nodeNumber_static x (by
      simp only [List.mem_append, List.mem_cons, List.not_mem_nil, or_false] at hx ⊢
      tauto)
    exact (h.listIds_cases hy).elim hempty (absurd hnone)

end Ids

section FromTree

/-- An item's nodes show the item once. -/
theorem filterMap_itemNode {items : List Todo} (hfit : ∀ item ∈ items, item.id < 2 ^ 64) :
    (Forest.labels (items.map itemNode)).filterMap TodoView.itemOf = items := by
  induction items with
  | nil => rfl
  | cons item items ih =>
    obtain ⟨hlt, hfit⟩ := List.forall_mem_cons.mp hfit
    have hrest := ih hfit
    simp [itemNode, UiNode.withChild, UiNode.withChecked, UiNode.new, TodoView.itemOf,
      parseNumberedId_item hlt, parseNumberedId_item_toggle, parseNumberedId_item_delete] at hrest ⊢
    exact hrest

/-- The items that a snapshot shows, in the order of the tree. -/
theorem filterMap_tree {s : TodoStore} (h : s.WellFormed) :
    s.tree.rows.filterMap (fun row => TodoView.itemOf row.2) =
      match s.page with | .todos => s.items | .settings => [] := by
  have hlist : (Forest.labels s.listChildren).filterMap TodoView.itemOf = s.items := by
    unfold listChildren
    split_ifs with hempty
    · rw [List.isEmpty_iff.mp hempty]
      rfl
    · exact filterMap_itemNode h.fits
  have hrows : s.tree.rows.filterMap (fun row => TodoView.itemOf row.2) =
      (Forest.labels s.tree.nodes).filterMap TodoView.itemOf := by
    rw [UiTree.rows, ← Forest.map_snd_rows_eq_labels NodeFields.id [], List.filterMap_map]
    rfl
  have hstatic : ∀ id ∈ frameIds ++ [ids.PAGE_TODOS, ids.INPUT, ids.ADD, ids.LIST_SCROLL,
      ids.LIST, ids.STATUS, ids.PAGE_SETTINGS, ids.SETTINGS_CONFIRM_DELETE],
      parseNumberedId "todo-item-" id = none := by decide
  simp only [frameIds, List.cons_append, List.nil_append, List.forall_mem_cons] at hstatic
  rw [hrows]
  cases hs : s.sidebarOpen <;> cases hp : s.page <;>
    simp [tree, hs, hp, navNode, pageNode, todosPage, settingsPage, UiNode.withChild,
      UiNode.new, UiNode.withValue, UiNode.withChecked, UiNode.withChildren,
      UiNode.withVisibleDeep, UiNode.hideAll, TodoView.itemOf, hstatic, hlist]

/-- Which of the ids outside the list are in a snapshot depends on the page alone. -/
theorem WellFormed.mem_ids {s : TodoStore} (h : s.WellFormed) {x : String}
    (hnone : nodeNumber x = none) (hempty : x ≠ ids.EMPTY) :
    x ∈ s.tree.ids ↔ x ∈ frameIds ++ match s.page with
      | .todos => [ids.PAGE_TODOS, ids.INPUT, ids.ADD, ids.LIST_SCROLL, ids.LIST, ids.STATUS]
      | .settings => [ids.PAGE_SETTINGS, ids.SETTINGS_CONFIRM_DELETE] := by
  rw [ids_tree]
  cases s.page with
  | settings => exact Iff.rfl
  | todos =>
    have hx : x ∉ s.listIds := fun hx => (h.listIds_cases hx).elim hempty (absurd hnone)
    simp [hx]

theorem find_page {s : TodoStore} (h : s.WellFormed) :
    (s.tree.find ids.PAGE_SETTINGS).isSome = true ↔ s.page = .settings := by
  rw [UiTree.find, Forest.find_isSome, ← UiTree.ids, h.mem_ids (by decide) (by decide)]
  cases s.page <;> decide

theorem find_input {s : TodoStore} (hp : s.page = .todos) :
    (s.tree.find ids.INPUT).bind (fun node => node.label.value) = some s.draft := by
  cases hs : s.sidebarOpen <;>
    simp [UiTree.find, ids.WINDOW, ids.NAV_TOGGLE, ids.NAV, ids.NAV_TODOS, ids.NAV_SETTINGS,
      ids.PAGE_TODOS, ids.INPUT, tree, hs, hp, navNode, pageNode, todosPage,
      UiNode.withChild, UiNode.new, UiNode.withValue, UiNode.withVisibleDeep, UiNode.hideAll]

theorem find_confirmDelete {s : TodoStore} (hp : s.page = .settings) :
    (s.tree.find ids.SETTINGS_CONFIRM_DELETE).bind (fun node => node.label.checked) =
      some s.confirmDelete := by
  cases hs : s.sidebarOpen <;>
    simp [UiTree.find, ids.WINDOW, ids.NAV_TOGGLE, ids.NAV, ids.NAV_TODOS, ids.NAV_SETTINGS,
      ids.PAGE_SETTINGS, ids.SETTINGS_CONFIRM_DELETE, tree, hs, hp, navNode, pageNode,
      settingsPage, UiNode.withChild, UiNode.new, UiNode.withChecked, UiNode.withVisibleDeep,
      UiNode.hideAll]

theorem find_nav (s : TodoStore) :
    ((s.tree.find ids.NAV).map fun node => node.label.visible) = some s.sidebarOpen := by
  cases hs : s.sidebarOpen <;>
    simp [UiTree.find, ids.WINDOW, ids.NAV_TOGGLE, ids.NAV, tree, hs, navNode, UiNode.withChild,
      UiNode.new, UiNode.withVisibleDeep]

/-- What a store shows a client: a page hides what only the other one has. -/
def shownView (s : TodoStore) : TodoView := match s.page with
  | .todos => ⟨s.items, s.draft, .todos, false, s.sidebarOpen⟩
  | .settings => ⟨[], "", .settings, s.confirmDelete, s.sidebarOpen⟩

theorem WellFormed.find_eq_none {s : TodoStore} (h : s.WellFormed) {x : String}
    (hx : nodeNumber x = none ∧ x ≠ ids.EMPTY) (hpage : x ∉ frameIds ++ match s.page with
      | .todos => [ids.PAGE_TODOS, ids.INPUT, ids.ADD, ids.LIST_SCROLL, ids.LIST, ids.STATUS]
      | .settings => [ids.PAGE_SETTINGS, ids.SETTINGS_CONFIRM_DELETE]) :
    s.tree.find x = none := by
  rw [UiTree.find, Forest.find_eq_none, ← UiTree.ids, h.mem_ids hx.1 hx.2]
  exact hpage

/-- The view read off a snapshot. -/
theorem WellFormed.fromTree_tree {s : TodoStore} (h : s.WellFormed) :
    TodoView.fromTree s.tree = s.shownView := by
  have hnav : ((s.tree.find ids.NAV).map fun node => node.label.visible).getD true =
      s.sidebarOpen := by
    rw [find_nav]
    rfl
  cases hp : s.page with
  | todos =>
    have hpage : ¬(s.tree.find ids.PAGE_SETTINGS).isSome = true := by
      rw [find_page h, hp]
      decide
    have hconfirm : s.tree.find ids.SETTINGS_CONFIRM_DELETE = none :=
      h.find_eq_none (by decide) (by rw [hp]; decide)
    have hsorted : (s.items.mergeSort fun a b => a.id ≤ b.id) = s.items := by
      refine List.mergeSort_of_pairwise ?_
      have hinc := List.pairwise_map.mp h.increasing
      exact hinc.imp fun hlt => decide_eq_true (le_of_lt hlt)
    rw [TodoView.fromTree, if_neg hpage, hnav, hconfirm, find_input hp, filterMap_tree h, hp]
    simp only [hsorted, shownView, hp]
    rfl
  | settings =>
    have hpage : (s.tree.find ids.PAGE_SETTINGS).isSome = true := (find_page h).mpr hp
    have hinput : s.tree.find ids.INPUT = none :=
      h.find_eq_none (by decide) (by rw [hp]; decide)
    rw [TodoView.fromTree, if_pos hpage, hnav, hinput, find_confirmDelete hp, filterMap_tree h, hp]
    simp only [List.mergeSort_nil, shownView, hp]
    rfl

/-- In a run with fewer adds than there are ids, the items stay in order under fresh ids, the
snapshot's ids are unique and a client reads back what the page shows. -/
theorem run_view (env : Env) (platform : PlatformKind) (calls : List StoreCall)
    (hadds : adds env (new platform) calls < 2 ^ 64 - 1) :
    (run env platform calls).WellFormed ∧ (run env platform calls).tree.ids.Nodup ∧
      TodoView.fromTree (run env platform calls).tree = (run env platform calls).shownView := by
  have h := run_wellFormed hadds
  exact ⟨h, h.nodup_ids, h.fromTree_tree⟩

/-- The calls of a client that adds two todos, one with blanks around it, and opens the settings. -/
def addsTwo : List StoreCall :=
  [.add " milk ", .agent (.invoke "todo.add" (.object [("title", .string "tea")])), navGo "settings"]

theorem run_view_addsTwo : adds .bare (new .headless) addsTwo < 2 ^ 64 - 1 ∧
    (run .bare .headless addsTwo).WellFormed ∧ (run .bare .headless addsTwo).tree.ids.Nodup ∧
      TodoView.fromTree (run .bare .headless addsTwo).tree =
        (run .bare .headless addsTwo).shownView := by
  have hadds : adds .bare (new .headless) addsTwo < 2 ^ 64 - 1 :=
    (adds_le_length .bare addsTwo (new .headless)).trans_lt (by decide)
  exact ⟨hadds, run_view .bare .headless addsTwo hadds⟩

end FromTree

end TodoStore

end GpuiAgent
