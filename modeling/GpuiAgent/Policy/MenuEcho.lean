import GpuiAgent.Framework.Indexed
import GpuiAgent.Policy.Jev

namespace GpuiAgent

open Framework

/-- No whitespace and no control characters. -/
def Printable (s : String) : Prop :=
  ∀ c ∈ s.toList, isWhitespace c = false ∧ isControl c = false

instance : DecidablePred Printable := fun s =>
  List.decidableBAll (fun c => isWhitespace c = false ∧ isControl c = false) s.toList

theorem Printable.append_iff {s t : String} : Printable (s ++ t) ↔ Printable s ∧ Printable t := by
  simp only [Printable, String.toList_append, List.forall_mem_append]

theorem ActionKind.printable_asStr (kind : ActionKind) : Printable kind.asStr := by
  cases kind <;> decide

namespace ActionId

theorem tryNew_eq_ok {raw id : String} :
    tryNew raw = .ok id ↔ id = raw ∧ raw.isEmpty = false ∧ Printable raw := by
  unfold tryNew Printable
  split_ifs with he hb
  · simp [he]
  · simp only [List.any_eq_true, Bool.or_eq_true] at hb
    obtain ⟨c, hc, hw⟩ := hb
    refine iff_of_false (by simp) fun h => ?_
    have := h.2.2 c hc
    simp_all
  · simp only [List.any_eq_true, Bool.or_eq_true, not_exists, not_and, not_or,
      Bool.not_eq_true] at hb
    simp only [Except.ok.injEq, he, true_and, eq_comm (a := raw)]
    exact ⟨fun h => ⟨h, hb⟩, fun h => h.1⟩

/-- The separators of an id are printable, so its target decides. -/
theorem printable_of_iff (kind : ActionKind) (target : Option String) :
    Printable (of kind target) ↔ ∀ t, target = some t → Printable t := by
  have hc : Printable ":" := by decide
  have he : Printable "Enter" := by decide
  have hk : Printable "KEY:" := by decide
  cases target with
  | none => simp [of, forControl, kind.printable_asStr]
  | some t =>
    simp only [of, Option.some.injEq, forall_eq']
    split_ifs
    · simp [forKey, Printable.append_iff, hc, he, hk]
    · simp [forTarget, Printable.append_iff, kind.printable_asStr, hc]

/-- A targeted id is its kind, a colon and the rest. -/
theorem exists_region (kind : ActionKind) (t : String) :
    ∃ rest, of kind (some t) = kind.asStr ++ ":" ++ rest := by
  by_cases hk : kind = .key
  · subst hk
    refine ⟨t ++ ":" ++ "Enter", ?_⟩
    have hkey : "KEY:" = ActionKind.key.asStr ++ ":" := by decide
    simp only [of, if_true, forKey, hkey, String.append_assoc]
  · exact ⟨t, by simp [of, hk, forTarget]⟩

theorem of_ne_empty (kind : ActionKind) (target : Option String) :
    (of kind target).isEmpty = false := by
  have h : of kind target ≠ "" := by
    cases target with
    | none => cases kind <;> decide
    | some t =>
      intro h
      have := colon_mem_of kind t
      simp [h] at this
  simpa using h

end ActionId

namespace ActionSpace

variable {space : ActionSpace} {a : OfferedAction}

/-- The string lookup finds an offer exactly when its target is printable. -/
theorem getStr_eq_some_iff (h : space.get a.id = some a) :
    space.getStr a.id = some a ↔ ∀ t, a.target = some t → Printable t := by
  have hid : a.id = ActionId.of a.kind a.target := (wellFormed_of_get h).id_eq
  rw [← ActionId.printable_of_iff a.kind, ← hid]
  have hne : a.id.isEmpty = false := hid ▸ ActionId.of_ne_empty _ _
  unfold getStr
  cases hn : ActionId.tryNew a.id with
  | ok id =>
    obtain ⟨rfl, -, hp⟩ := ActionId.tryNew_eq_ok.mp hn
    simp [h, hp]
  | error e =>
    refine iff_of_false (by simp) fun hp => ?_
    rw [ActionId.tryNew_eq_ok.mpr ⟨rfl, hne, hp⟩] at hn
    cases hn

theorem getStr_eq_none (h : space.get a.id = some a) (hs : space.getStr a.id ≠ some a) :
    space.getStr a.id = none := by
  cases hg : space.getStr a.id with
  | none => rfl
  | some b =>
    have := get_of_getStr hg
    exact absurd (hg.trans (this ▸ h)) hs

end ActionSpace

/-- The reply that echoes the id and the op of a row of the menu. -/
def echo (row : Json) : Json :=
  .object [("choice", .object [("id", (row.get "id").getD .null),
    ("op", (row.get "op").getD .null)])]

theorem echo_toJson (a : OfferedAction) : echo a.toJson =
    .object [("choice", .object [("id", .string a.id), ("op", .string a.kind.asStr)])] := by
  have hi : a.toJson.get "id" = some (.string a.id) := rfl
  have ho : a.toJson.get "op" = some (.string a.kind.asStr) := rfl
  rw [echo, hi, ho]
  rfl

/-- The choice of an offer through the endpoint. -/
def OfferedAction.chosen (a : OfferedAction) : PolicyOutcome :=
  .choice ⟨a.id, a.kind, a.label, 0, [], []⟩

namespace CommandEscalation

variable {parseJson : String → Except String Json} {reply : String} {space : ActionSpace}
  {a : OfferedAction}

/-- Reading an echo comes down to the string lookup of its id. -/
theorem parseChooseReply_echo (hreply : parseJson reply = .ok (echo a.toJson)) :
    parseChooseReply parseJson space reply = match space.getStr a.id with
      | none => .error (bad s!"off-menu id `{a.id}`")
      | some offered =>
        if offered.kind.asStr ≠ a.kind.asStr then
          .error (bad s!"id `{a.id}` is {offered.kind.asStr} not {a.kind.asStr}")
        else if offered.dangerous then .ok (.abstain "needs_confirmation" [] [])
        else .ok offered.chosen := by
  rw [echo_toJson] at hreply
  have read : parseChooseReply parseJson space reply = do
      let offered ← okOr (bad s!"off-menu id `{a.id}`") (space.getStr a.id)
      require (offered.kind.asStr = a.kind.asStr)
        (bad s!"id `{a.id}` is {offered.kind.asStr} not {a.kind.asStr}")
      if offered.dangerous then return .abstain "needs_confirmation" [] []
      else return offered.chosen := by
    unfold parseChooseReply
    rw [hreply]
    rfl
  rw [read]
  cases space.getStr a.id with
  | none => rfl
  | some offered =>
    by_cases hk : offered.kind.asStr = a.kind.asStr
    · simp only [okOr, require, hk, bind, Except.bind, decide_true, if_true, ne_eq,
        not_true_eq_false, if_false]
      rfl
    · simp [okOr, require, hk, bind, Except.bind]

/-- The echo of an offered harmless action is accepted exactly when its target is printable. -/
theorem parseChooseReply_echo_iff (h : space.get a.id = some a) (hd : a.dangerous = false)
    (hreply : parseJson reply = .ok (echo a.toJson)) :
    parseChooseReply parseJson space reply = .ok a.chosen ↔
      ∀ t, a.target = some t → Printable t := by
  rw [parseChooseReply_echo hreply, ← ActionSpace.getStr_eq_some_iff h]
  by_cases hs : space.getStr a.id = some a
  · simp [hs, hd]
  · simp [ActionSpace.getStr_eq_none h hs]

end CommandEscalation

namespace Jev

variable {space : ActionSpace} {a : OfferedAction}

theorem elementKindOf_asStr (kind : ActionKind) :
    elementKindOf kind.asStr = if kind.isControl then none else some kind := by
  cases kind <;> decide

theorem composeId_region (hw : a.WellFormed) (hk : a.kind.isControl = false) :
    composeId a.kind.asStr (some (region a.id)) = a.id := by
  obtain ⟨t, ht⟩ := Option.isSome_iff_exists.mp (hw.target_isSome.trans (by rw [hk]; rfl))
  obtain ⟨rest, hr⟩ := ActionId.exists_region a.kind t
  have hid : a.id = a.kind.asStr ++ ":" ++ rest := by rw [hw.id_eq, ht, hr]
  have hs : splitOnce ':' a.id = some (a.kind.asStr, rest) := by
    rw [hid]
    exact splitOnce_append a.kind.colon_not_mem_asStr rest
  rw [region, hs, hid]
  rfl

/-- The questions offer an action: its kind is a key of the operation head, and the id composed from
that key and the action's key in the target head, where the kind has one, is the action's. -/
structure Echoes (built : BuiltQuestions) (a : OfferedAction) : Prop where
  operation : ∃ keys, keysFor built.criteriaKeys "operation" = .ok keys ∧ a.kind.asStr ∈ keys
  target : match elementKindOf a.kind.asStr with
    | some kind => ∃ keys, keysFor built.criteriaKeys (headName kind) = .ok keys ∧
        (criterion a).1 ∈ keys ∧ composeId a.kind.asStr (some (criterion a).1) = a.id
    | none => composeId a.kind.asStr none = a.id

/-- A targeted offer is a criterion of its kind's head. -/
theorem mem_targetHeads (h : space.get a.id = some a) (hk : a.kind.isControl = false) :
    ∃ head ∈ targetHeads space, head.1 = a.kind ∧ criterion a ∈ head.2.2 := by
  have hw := ActionSpace.wellFormed_of_get h
  have ht : a ∈ space.targetsOf a.kind :=
    ActionSpace.mem_targetsOf.mpr ⟨h, rfl, hw.target_isSome.trans (by rw [hk]; rfl)⟩
  have hl : ∃ label, (a.kind, label) ∈ ELEMENT_LABELS := by
    cases hkind : a.kind <;> simp_all [ELEMENT_LABELS, ActionKind.isControl,
      ActionKind.operationKind, OperationKind.isControl]
  obtain ⟨label, hl⟩ := hl
  have hne : (space.targetsOf a.kind).isEmpty = false := by
    rw [List.isEmpty_eq_false_iff]
    exact List.ne_nil_of_mem ht
  refine ⟨_, List.mem_map_of_mem (List.mem_filter.mpr ⟨hl, ?_⟩), rfl, List.mem_map_of_mem ht⟩
  simp [hne]

theorem kind_mem_operationCriteria (h : space.get a.id = some a) :
    a.kind.asStr ∈ (operationCriteria space).map Prod.fst := by
  have hw := ActionSpace.wellFormed_of_get h
  simp only [operationCriteria, List.map_append, List.mem_append, List.map_map]
  cases hk : a.kind.isControl with
  | false =>
    obtain ⟨head, hm, he, -⟩ := mem_targetHeads h hk
    exact .inl (List.mem_map.mpr ⟨head, hm, by simp [he]⟩)
  | true =>
    have ht : a.target = none := by simpa [hk] using hw.target_isSome
    have hid : a.id = a.kind.asStr := by rw [hw.id_eq, ht]; rfl
    have hs : space.getStr a.kind.asStr = some a := by
      rw [← hid, ActionSpace.getStr_eq_some_iff h]
      simp [ht]
    have hl : ∃ label, (a.kind, label) ∈ CONTROL_LABELS := by
      rcases (a.kind.isControl_iff).mp hk with hc | hc | hc <;> simp [hc, CONTROL_LABELS]
    obtain ⟨label, hl⟩ := hl
    exact .inr (List.mem_map.mpr ⟨(a.kind, label), List.mem_filter.mpr ⟨hl, by simp [hs]⟩, rfl⟩)

theorem nodup_heads (space : ActionSpace) :
    ((targetHeads space).map fun head => headName head.1).Nodup := by
  have hall : (ELEMENT_LABELS.map fun row => headName row.1).Nodup := by decide
  simp only [targetHeads, List.map_map, Function.comp_def]
  exact hall.sublist (List.filter_sublist.map _)

theorem headName_ne_operation (kind : ActionKind) : headName kind ≠ "operation" := by
  cases kind <;> decide

/-- Every offer is echoed by the questions of its space. -/
theorem echoes_buildQuestions (h : space.get a.id = some a) (goal : UiGoal)
    (history : List HistoryEntry) :
    ∃ built, buildQuestions space goal history = .ok built ∧ Echoes built a := by
  have hop := kind_mem_operationCriteria h
  have hne : (operationCriteria space).isEmpty = false := by
    rw [List.isEmpty_eq_false_iff]
    exact fun he => by simp [he] at hop
  simp only [buildQuestions, hne]
  refine ⟨_, rfl, ⟨_, rfl, hop⟩, ?_⟩
  rw [elementKindOf_asStr]
  cases hk : a.kind.isControl with
  | true =>
    have hw := ActionSpace.wellFormed_of_get h
    have ht : a.target = none := by simpa [hk] using hw.target_isSome
    simp only [if_true, composeId]
    rw [hw.id_eq, ht]
    rfl
  | false =>
    obtain ⟨head, hm, he, hc⟩ := mem_targetHeads h hk
    refine ⟨head.2.2.map Prod.fst, ?_, List.mem_map_of_mem hc,
      composeId_region (ActionSpace.wellFormed_of_get h) hk⟩
    simp only [keysFor, okOr_eq_ok]
    refine lookup_of_mem ?_ (List.mem_cons_of_mem _ ?_)
    · simp only [List.map_cons, List.map_map, Function.comp_def, List.nodup_cons]
      refine ⟨?_, nodup_heads space⟩
      intro hmem
      obtain ⟨x, -, hx⟩ := List.mem_map.mp hmem
      exact headName_ne_operation _ hx
    · rw [List.map_map]
      exact List.mem_map.mpr ⟨head, hm, by simp [he]⟩

end Jev

open CommandEscalation in
/-- An offered harmless action is echoed, by the reply that repeats its row of the menu and by the
questions, exactly when its target has no whitespace and no control characters. -/
theorem ActionSpace.echoed_iff_printable (lex : Lexicon) (tree : UiTree)
    (keybindings : List KeybindingInfo) (invokes : List OfferedInvoke) {a : OfferedAction}
    (ha : a ∈ (fromTree lex tree keybindings invokes).offered) (hd : a.dangerous = false)
    {parseJson : String → Except String Json} {reply : String}
    (hreply : parseJson reply = .ok (echo a.toJson)) :
    (parseChooseReply parseJson (fromTree lex tree keybindings invokes) reply = .ok a.chosen ∧
      ∀ goal history, ∃ built,
        Jev.buildQuestions (fromTree lex tree keybindings invokes) goal history = .ok built ∧
          Jev.Echoes built a) ↔
      ∀ t, a.target = some t → Printable t := by
  have h := mem_offered_iff.mp ha
  rw [parseChooseReply_echo_iff h hd hreply]
  exact and_iff_left fun goal history => Jev.echoes_buildQuestions h goal history

/-- A window with one button. -/
def buttonTree (id : String) : UiTree where
  app := "todo"
  platform := .headless
  ready := true
  nodes := [.node { id := "w", role := Role.WINDOW, name := "App" }
    [.node { id, role := Role.BUTTON, name := "Save" } []]]

def buttonSpace (id : String) : ActionSpace := .fromTree .ascii (buttonTree id) [] []

def clickButton (id : String) : OfferedAction :=
  nodeAction .click (.forTarget .click id) "Save"
    (some { id := "w", role := Role.WINDOW, name := "App" })
    { id, role := Role.BUTTON, name := "Save" }

/-- The reader of one reply text. -/
def readEcho (text : String) (a : OfferedAction) (reply : String) : Except String Json :=
  if reply = text then .ok (echo a.toJson) else .error "EOF while parsing a value"

def saveReply : String := "\x7b\"choice\":\x7b\"id\":\"CLICK:save\",\"op\":\"CLICK\"\x7d\x7d"

theorem ActionSpace.echoed_iff_printable_save :
    CommandEscalation.parseChooseReply (readEcho saveReply (clickButton "save"))
      (buttonSpace "save") saveReply = .ok (clickButton "save").chosen :=
  ((echoed_iff_printable .ascii (buttonTree "save") [] [] (a := clickButton "save")
    (by decide +kernel) (by decide) (if_pos rfl)).mpr
      (by decide)).1

def saveAllReply : String :=
  "\x7b\"choice\":\x7b\"id\":\"CLICK:save all\",\"op\":\"CLICK\"\x7d\x7d"

/-- A node id with a space is listed in the menu and refused as off-menu. -/
theorem ActionSpace.echo_refused : clickButton "save all" ∈ (buttonSpace "save all").offered ∧
    (clickButton "save all").dangerous = false ∧
    readEcho saveAllReply (clickButton "save all") saveAllReply =
      .ok (echo (clickButton "save all").toJson) ∧
    CommandEscalation.parseChooseReply (readEcho saveAllReply (clickButton "save all"))
      (buttonSpace "save all") saveAllReply =
        .error "escalation: off-menu id `CLICK:save all`" := by
  refine ⟨?_, rfl, if_pos rfl, ?_⟩ <;> decide +kernel

end GpuiAgent
