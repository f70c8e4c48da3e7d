import GpuiAgent.Server.WaitUntil

namespace GpuiAgent

open Framework Framework.RoseTree

section Field

variable {α : Type} {field : Option α} {check : α → Except String Unit} {rest : Except String Unit}
  {error : String}

/-- A check that is made when its field is given, and the checks after it. -/
def checkSome (field : Option α) (check : α → Except String Unit) (rest : Except String Unit) :
    Except String Unit :=
  match field with
  | some a => check a >>= fun _ => rest
  | none => rest

theorem checkSome_ok (h : ∀ a ∈ field, check a = .ok ()) : checkSome field check rest = rest := by
  cases field with
  | none => rfl
  | some a =>
    have ha := h a rfl
    simp only [checkSome, ha]
    rfl

/-- A failure is the field's own, or comes after the field has passed. -/
theorem checkSome_error (h : checkSome field check rest = .error error) :
    (∃ a, check a = .error error) ∨ (∀ a ∈ field, check a = .ok ()) ∧ rest = .error error := by
  cases field with
  | none => exact .inr ⟨fun a ha => absurd ha (Option.not_mem_none a), h⟩
  | some a =>
    cases hcheck : check a with
    | error e =>
      simp only [checkSome, hcheck] at h
      exact .inl ⟨a, hcheck.trans h⟩
    | ok _ =>
      simp only [checkSome, hcheck] at h
      refine .inr ⟨?_, h⟩
      rintro b ⟨⟩
      exact hcheck

end Field

/-- The fields of `spec` up to `in_viewport`, in the order of their checks. -/
theorem assertTree_eq (env : Env) (tree : UiTree) (spec : AssertSpec)
    (present : spec.exists'.getD true = true) :
    assertTree env tree spec = (tree.requireId spec.target >>= fun node =>
      let n := node.label
      let check := assertField spec.target
      checkSome spec.name (fun name =>
        check "name" (env.debugStr name) (env.debugStr n.name) (n.name = name)) <|
      checkSome spec.value (fun value =>
        check "value" (env.debugStr value) (debugOption env.debugStr n.value)
          (n.value = some value)) <|
      checkSome spec.role (fun role =>
        check "role" (env.debugStr role) (env.debugStr n.role) (n.role = role)) <|
      checkSome spec.checked (fun checked =>
        check "checked" (toString checked) (debugOption toString n.checked)
          (n.checked = some checked)) <|
      checkSome spec.visible (fun visible =>
        check "visible" (toString visible) (toString n.visible) (n.visible = visible)) <|
      match spec.inViewport with
      | some expected => nodeInViewport tree n >>= fun actual =>
        check "in_viewport" (toString expected) (toString actual) (actual = expected)
      | none => .ok ()) := by
  unfold assertTree
  rw [if_pos present]
  refine congrArg (tree.requireId spec.target >>= ·) (funext fun node => ?_)
  cases spec.name <;> cases spec.value <;> cases spec.role <;> cases spec.checked <;>
    cases spec.visible <;> cases spec.inViewport <;> rfl

/-- Evaluating `spec` gets as far as its `in_viewport` check, which it makes on `n`. -/
structure ReachesInViewport (tree : UiTree) (spec : AssertSpec) (n : NodeFields) : Prop where
  present : spec.exists'.getD true = true
  found : ∃ node, tree.requireId spec.target = .ok node ∧ node.label = n
  name : ∀ name ∈ spec.name, n.name = name
  value : ∀ value ∈ spec.value, n.value = some value
  role : ∀ role ∈ spec.role, n.role = role
  checked : ∀ checked ∈ spec.checked, n.checked = some checked
  visible : ∀ visible ∈ spec.visible, n.visible = visible
  asked : spec.inViewport.isSome = true

section Assert

variable {env : Env} {tree : UiTree} {spec : AssertSpec} {n : NodeFields} {error : String}

theorem assertField_eq_ok {target field expected got : String} {holds : Bool} :
    assertField target field expected got holds = .ok () ↔ holds = true := by
  unfold assertField
  split_ifs with h
  · simp [h]
  · simp [h]

theorem isInViewportUnavailable_append {pre : String} (rest : String)
    (h : startsWith pre (IN_VIEWPORT_UNAVAILABLE ++ ":") = false)
    (h' : startsWith (IN_VIEWPORT_UNAVAILABLE ++ ":") pre = false)
    (h'' : startsWith IN_VIEWPORT_UNAVAILABLE pre = false) :
    isInViewportUnavailable (pre ++ rest) = false := by
  unfold isInViewportUnavailable
  rw [Bool.or_eq_false_iff, decide_eq_false_iff_not]
  constructor
  · intro heq
    rw [← heq, startsWith_append] at h''
    cases h''
  · by_contra hstart
    rw [Bool.not_eq_false] at hstart
    rcases startsWith_append_cases hstart with hpre | hpre
    · rw [hpre] at h
      cases h
    · rw [hpre] at h'
      cases h'

/-- The texts about a node are not about its geometry. -/
theorem isInViewportUnavailable_node (rest : String) :
    isInViewportUnavailable ("node `" ++ rest) = false :=
  isInViewportUnavailable_append rest (by decide) (by decide) (by decide)

theorem isInViewportUnavailable_duplicate (rest : String) :
    isInViewportUnavailable ("duplicate id `" ++ rest) = false :=
  isInViewportUnavailable_append rest (by decide) (by decide) (by decide)

theorem assertField_error {target field expected got : String} {holds : Bool}
    (h : assertField target field expected got holds = .error error) :
    isInViewportUnavailable error = false := by
  unfold assertField at h
  split_ifs at h
  cases h
  simp only [toString, String.append_assoc]
  exact isInViewportUnavailable_node _

theorem requireId_error {id : String} (h : tree.requireId id = .error error) :
    isInViewportUnavailable error = false := by
  unfold UiTree.requireId at h
  split at h
  next =>
    cases h
    simp only [toString, String.append_assoc]
    exact isInViewportUnavailable_node _
  next => cases h
  next =>
    cases h
    simp only [toString, String.append_assoc]
    exact isInViewportUnavailable_duplicate _

/-- A spec that is evaluated as far as `in_viewport` fails or passes there. -/
theorem assertTree_of_reaches (env : Env) (h : ReachesInViewport tree spec n) :
    ∃ expected, assertTree env tree spec = (nodeInViewport tree n >>= fun actual =>
      assertField spec.target "in_viewport" (toString expected) (toString actual)
        (actual = expected)) := by
  obtain ⟨node, found, rfl⟩ := h.found
  obtain ⟨expected, asked⟩ := Option.isSome_iff_exists.mp h.asked
  refine ⟨expected, ?_⟩
  rw [assertTree_eq env tree spec h.present, found, asked]
  simp only [bind, Except.bind]
  rw [checkSome_ok fun name hname => assertField_eq_ok.mpr (decide_eq_true (h.name name hname)),
    checkSome_ok fun value hvalue => assertField_eq_ok.mpr (decide_eq_true (h.value value hvalue)),
    checkSome_ok fun role hrole => assertField_eq_ok.mpr (decide_eq_true (h.role role hrole)),
    checkSome_ok fun checked hchecked =>
      assertField_eq_ok.mpr (decide_eq_true (h.checked checked hchecked)),
    checkSome_ok fun visible hvisible =>
      assertField_eq_ok.mpr (decide_eq_true (h.visible visible hvisible))]

/-- Any other failure is about another field. -/
theorem assertTree_error (failing : assertTree env tree spec = .error error)
    (elsewhere : ∀ n, ¬ ReachesInViewport tree spec n) : isInViewportUnavailable error = false := by
  by_cases present : spec.exists'.getD true = true
  · rw [assertTree_eq env tree spec present] at failing
    cases found : tree.requireId spec.target with
    | error e =>
      rw [found] at failing
      cases failing
      exact requireId_error found
    | ok node =>
      rw [found] at failing
      simp only [bind, Except.bind] at failing
      have holds {α : Type} {field : Option α} {expected got : α → String} {name : String}
          {p : α → Prop} [DecidablePred p]
          (h : ∀ a ∈ field, assertField spec.target name (expected a) (got a) (decide (p a)) =
            .ok ()) : ∀ a ∈ field, p a :=
        fun a ha => of_decide_eq_true (assertField_eq_ok.mp (h a ha))
      rcases checkSome_error failing with ⟨_, h⟩ | ⟨name, failing⟩
      · exact assertField_error h
      rcases checkSome_error failing with ⟨_, h⟩ | ⟨value, failing⟩
      · exact assertField_error h
      rcases checkSome_error failing with ⟨_, h⟩ | ⟨role, failing⟩
      · exact assertField_error h
      rcases checkSome_error failing with ⟨_, h⟩ | ⟨checked, failing⟩
      · exact assertField_error h
      rcases checkSome_error failing with ⟨_, h⟩ | ⟨visible, failing⟩
      · exact assertField_error h
      cases asked : spec.inViewport with
      | none =>
        rw [asked] at failing
        cases failing
      | some expected =>
        exact absurd ⟨present, ⟨node, found, rfl⟩, holds name, holds value, holds role,
          holds checked, holds visible, by rw [asked]; rfl⟩ (elsewhere node.label)
  · unfold assertTree at failing
    rw [if_neg present] at failing
    split at failing
    next => cases failing
    next =>
      cases failing
      simp only [toString, String.append_assoc]
      exact isInViewportUnavailable_node _
    next =>
      cases failing
      simp only [toString, String.append_assoc]
      exact isInViewportUnavailable_duplicate _

/-- The geometry that `in_viewport` needs is not there. -/
def GeometryUnavailable (tree : UiTree) (n : NodeFields) : Prop :=
  n.bounds.hasArea = false ∨ ∀ clip, windowClip tree n.id = .ok clip → clip.hasArea = false

theorem requireId_id {id : String} {node : UiNode} (h : tree.requireId id = .ok node) :
    node.label.id = id := by
  unfold UiTree.requireId at h
  split at h
  next => cases h
  next n single =>
    obtain rfl := Except.ok.inj h
    have hmem : n ∈ tree.findAll id := by rw [single]; exact List.mem_singleton_self n
    obtain ⟨r, hr, rfl⟩ := List.mem_map.mp hmem
    exact of_decide_eq_true (List.mem_filter.mp hr).2
  next => cases h

theorem isInViewportUnavailable_text (detail : String) :
    isInViewportUnavailable (inViewportUnavailable detail) = true := by
  have text : inViewportUnavailable detail = IN_VIEWPORT_UNAVAILABLE ++ ":" ++ (" " ++ detail) := by
    apply String.toList_inj.mp
    simp [inViewportUnavailable, toString, String.toList_append]
  rw [text]
  unfold isInViewportUnavailable
  rw [startsWith_append, Bool.or_true]

/-- The word "headless" is in an error about a node's geometry only if it is in the node's id. -/
theorem contains_inViewportUnavailable {detail : String} (before id after : String)
    (text : detail = before ++ "`" ++ id ++ "`" ++ after)
    (hbefore : contains (inViewportUnavailable before) "headless" = false)
    (hafter : contains after "headless" = false) :
    contains (inViewportUnavailable detail) "headless" = contains id "headless" := by
  have quoted : inViewportUnavailable detail =
      inViewportUnavailable before ++ "`" ++ id ++ "`" ++ after := by
    subst text
    apply String.toList_inj.mp
    simp [inViewportUnavailable, toString, String.toList_append]
  rw [quoted]
  exact contains_quoted id (by decide) hbefore hafter

theorem contains_boundsZero (id : String) :
    contains (inViewportUnavailable s!"node `{id}` bounds are zero") "headless" =
      contains id "headless" := by
  apply contains_inViewportUnavailable "node " id " bounds are zero"
  · apply String.toList_inj.mp
    simp [toString, String.toList_append]
  · decide +kernel
  · decide +kernel

theorem contains_noWindowClip (id : String) :
    contains (inViewportUnavailable s!"no window clip for `{id}`") "headless" =
      contains id "headless" := by
  apply contains_inViewportUnavailable "no window clip for " id ""
  · apply String.toList_inj.mp
    simp [toString, String.toList_append]
  · decide +kernel
  · decide +kernel

theorem contains_windowClipZero (id : String) :
    contains (inViewportUnavailable s!"window clip for `{id}` has zero bounds") "headless" =
      contains id "headless" := by
  apply contains_inViewportUnavailable "window clip for " id " has zero bounds"
  · apply String.toList_inj.mp
    simp [toString, String.toList_append]
  · decide +kernel
  · decide +kernel

/-- Where a painted window has no geometry for a node, the error says so. -/
theorem nodeInViewport_error (painted : tree.platform ≠ .headless)
    (missing : GeometryUnavailable tree n) :
    ∃ error, nodeInViewport tree n = .error error ∧ isInViewportUnavailable error = true ∧
      contains error "headless" = contains n.id "headless" := by
  unfold nodeInViewport
  rw [if_neg painted]
  by_cases area : n.bounds.hasArea = true
  · have missing := missing.resolve_left (by simp [area])
    rw [if_neg (by simp [area])]
    cases hclip : windowClip tree n.id with
    | error e =>
      unfold windowClip at hclip
      split at hclip
      next => cases hclip
      next =>
        cases hclip
        exact ⟨_, rfl, isInViewportUnavailable_text _, contains_noWindowClip n.id⟩
    | ok clip =>
      have hzero := missing clip hclip
      simp only [pure, Except.pure, bind, Except.bind]
      rw [if_pos (by simp [hzero])]
      exact ⟨_, rfl, isInViewportUnavailable_text _, contains_windowClipZero n.id⟩
  · rw [if_pos (by simp [area])]
    exact ⟨_, rfl, isInViewportUnavailable_text _, contains_boundsZero n.id⟩

theorem nodeInViewport_ok (painted : tree.platform ≠ .headless)
    (available : ¬ GeometryUnavailable tree n) :
    ∃ actual, nodeInViewport tree n = .ok actual := by
  unfold GeometryUnavailable at available
  push Not at available
  obtain ⟨area, clip, hclip, hzero⟩ := available
  refine ⟨n.bounds.intersects clip, ?_⟩
  unfold nodeInViewport
  rw [if_neg painted, if_neg (by simpa using area), hclip]
  simp only [bind, Except.bind]
  rw [if_neg (by simpa using hzero)]
  rfl

end Assert

section Decisions

variable {σ : Type} (env : Env) (host : AgentHost σ) (s : σ) (cache : TreeCache) (id : String)
  (spec : AssertSpec) (error : String)

/-- `wait_until` on the host ends with the assert's own error, however much time is left. -/
def StopsDirect : Prop := ∀ polls,
  waitUntilAssert env host s id spec polls cache = (.err id error, (cache.snapshot host s).2)

/-- It looks again until the deadline. -/
def PollsDirect : Prop :=
  waitUntilAssert env host s id spec 0 cache =
      (.err id s!"wait_until timed out: {error}", (cache.snapshot host s).2) ∧
    ∀ polls, waitUntilAssert env host s id spec (polls + 1) cache =
      waitUntilAssert env host s id spec polls (cache.snapshot host s).2

theorem waitUntilAssert_failing
    (failing : assertTree env (cache.snapshot host s).1 spec = .error error) :
    let stop := isInViewportUnavailable error = true ∧ (cache.snapshot host s).1.platform = .headless
    (stop → StopsDirect env host s cache id spec error) ∧
      (¬ stop → PollsDirect env host s cache id spec error) := by
  constructor
  · intro stop polls
    unfold waitUntilAssert
    simp only [failing]
    rw [if_pos stop]
  · intro poll
    refine ⟨?_, fun polls => ?_⟩
    · unfold waitUntilAssert
      simp only [failing]
      rw [if_neg poll]
    · rw [waitUntilAssert]
      simp only [failing]
      rw [if_neg poll]

variable (req : Request) (call : WaitUntilCall) (probedRev : Option Nat) (resp : Response)

/-- `wait_until` through the mailbox ends with the assert's own error. -/
def StopsMailbox : Prop := ∀ late,
  (Waiting.asserted req call probedRev late (.ok resp)).phase = .returned (.err req.id error)

/-- It starts another round unless the deadline has passed. -/
def PollsMailbox : Prop :=
  (Waiting.asserted req call probedRev true (.ok resp)).phase =
      .returned (.err req.id s!"wait_until timed out: {error}") ∧
    (Waiting.asserted req call probedRev false (.ok resp)).phase = .top

theorem asserted_failing :
    let stop := (isInViewportUnavailable error && contains error "headless") = true
    (stop → StopsMailbox error req call probedRev (assertReply req.id (.error error))) ∧
      (¬ stop → PollsMailbox error req call probedRev (assertReply req.id (.error error))) := by
  constructor
  · intro stop late
    simp [Waiting.asserted, assertReply, Response.err, stop]
  · intro poll
    constructor
    · simp [Waiting.asserted, assertReply, Response.err, poll]
    · simp [Waiting.asserted, assertReply, Response.err, poll]

theorem not_pollsMailbox_of_stops
    (h : StopsMailbox error req call probedRev resp) :
    ¬ PollsMailbox error req call probedRev resp := by
  rintro ⟨-, hpolls⟩
  cases (h false).symm.trans hpolls

end Decisions

section Agreement

variable {env : Env} {tree : UiTree} {spec : AssertSpec} {n : NodeFields} {error : String}

/-- Evaluating `spec` reaches `in_viewport` on a headless host, which has no window to measure in. -/
def HeadlessInViewport (tree : UiTree) (spec : AssertSpec) : Prop :=
  (∃ n, ReachesInViewport tree spec n) ∧ tree.platform = .headless

/-- The condition under which the mailbox's side takes a painted window for a headless host: the
geometry is missing of a node whose id has the word in it. -/
def MisreadsHeadless (tree : UiTree) (spec : AssertSpec) : Prop :=
  tree.platform ≠ .headless ∧ contains spec.target "headless" = true ∧
    ∃ n, ReachesInViewport tree spec n ∧ GeometryUnavailable tree n

theorem ReachesInViewport.id_eq (h : ReachesInViewport tree spec n) : n.id = spec.target := by
  obtain ⟨node, found, rfl⟩ := h.found
  exact requireId_id found

theorem ReachesInViewport.unique {m : NodeFields} (h : ReachesInViewport tree spec n)
    (h' : ReachesInViewport tree spec m) : n = m := by
  obtain ⟨node, found, rfl⟩ := h.found
  obtain ⟨node', found', rfl⟩ := h'.found
  rw [found] at found'
  cases found'
  rfl

/-- The error on a headless host says both that geometry is missing and why. -/
theorem headless_error (h : ReachesInViewport tree spec n) (headless : tree.platform = .headless)
    (failing : assertTree env tree spec = .error error) :
    isInViewportUnavailable error = true ∧ contains error "headless" = true := by
  obtain ⟨expected, heq⟩ := assertTree_of_reaches env h
  have hthrown : nodeInViewport tree n =
      .error (inViewportUnavailable "headless hosts have no painted window clip") := by
    unfold nodeInViewport
    rw [if_pos headless]
    rfl
  rw [heq, hthrown] at failing
  cases failing
  exact ⟨isInViewportUnavailable_text _, by decide +kernel⟩

theorem missing_error (h : ReachesInViewport tree spec n) (painted : tree.platform ≠ .headless)
    (missing : GeometryUnavailable tree n) (failing : assertTree env tree spec = .error error) :
    isInViewportUnavailable error = true ∧
      contains error "headless" = contains spec.target "headless" := by
  obtain ⟨expected, heq⟩ := assertTree_of_reaches env h
  obtain ⟨thrown, hthrown, unavailable, hcontains⟩ := nodeInViewport_error painted missing
  rw [heq, hthrown] at failing
  cases failing
  exact ⟨unavailable, h.id_eq ▸ hcontains⟩

theorem measured_error (h : ReachesInViewport tree spec n) (painted : tree.platform ≠ .headless)
    (available : ¬ GeometryUnavailable tree n)
    (failing : assertTree env tree spec = .error error) :
    isInViewportUnavailable error = false := by
  obtain ⟨expected, heq⟩ := assertTree_of_reaches env h
  obtain ⟨actual, hactual⟩ := nodeInViewport_ok painted available
  rw [heq, hactual] at failing
  exact assertField_error failing

/-- On a tree where the assert fails, both sides stop early exactly when it reaches `in_viewport` on
a headless host, and otherwise both poll until the deadline, unless the mailbox's side misreads the
node's id. -/
theorem wait_until_agrees_iff {σ : Type} (env : Env) (host : AgentHost σ) (s : σ)
    (cache : TreeCache) (tree : UiTree) (spec : AssertSpec) (error id : String) (req : Request)
    (call : WaitUntilCall) (probedRev : Option Nat)
    (evaluated : (cache.snapshot host s).1 = tree)
    (failing : assertTree env tree spec = .error error) :
    let resp := assertReply req.id (assertTree env tree spec)
    (HeadlessInViewport tree spec →
        StopsDirect env host s cache id spec error ∧
          StopsMailbox error req call probedRev resp) ∧
      (¬ HeadlessInViewport tree spec →
        PollsDirect env host s cache id spec error ∧
          PollsMailbox error req call probedRev resp) ↔
    ¬ MisreadsHeadless tree spec := by
  intro resp
  have hresp : resp = assertReply req.id (.error error) := by
    unfold resp
    rw [failing]
  rw [hresp]
  subst evaluated
  obtain ⟨stopsDirect, pollsDirect⟩ := waitUntilAssert_failing env host s cache id spec error failing
  obtain ⟨stopsMailbox, pollsMailbox⟩ := asserted_failing error req call probedRev
  -- an error about anything else keeps both sides polling
  have other (unrelated : isInViewportUnavailable error = false) :
      PollsDirect env host s cache id spec error ∧
        PollsMailbox error req call probedRev (assertReply req.id (.error error)) :=
    ⟨pollsDirect (by simp [unrelated]), pollsMailbox (by simp [unrelated])⟩
  by_cases reached : ∃ n, ReachesInViewport (cache.snapshot host s).1 spec n
  · obtain ⟨n, hn⟩ := reached
    by_cases headless : (cache.snapshot host s).1.platform = .headless
    · obtain ⟨unavailable, word⟩ := headless_error hn headless failing
      refine iff_of_true ⟨fun _ => ?_, fun h => absurd ⟨⟨n, hn⟩, headless⟩ h⟩ fun h => h.1 headless
      exact ⟨stopsDirect ⟨unavailable, headless⟩, stopsMailbox (by simp [unavailable, word])⟩
    · have painted : ¬ HeadlessInViewport (cache.snapshot host s).1 spec := fun h => headless h.2
      by_cases missing : GeometryUnavailable (cache.snapshot host s).1 n
      · obtain ⟨unavailable, word⟩ := missing_error hn headless missing failing
        by_cases named : contains spec.target "headless" = true
        · refine iff_of_false (fun h => ?_) (not_not.mpr ⟨headless, named, n, hn, missing⟩)
          have stops := stopsMailbox (by simp [unavailable, word, named])
          exact not_pollsMailbox_of_stops _ _ _ _ _ stops (h.2 painted).2
        · refine iff_of_true ⟨fun h => absurd h painted, fun _ => ?_⟩ fun h => named h.2.1
          exact ⟨pollsDirect fun h => headless h.2, pollsMailbox (by simp [word, named])⟩
      · have unrelated := measured_error hn headless missing failing
        refine iff_of_true ⟨fun h => absurd h painted, fun _ => other unrelated⟩ ?_
        rintro ⟨-, -, m, hm, hmissing⟩
        exact missing (hn.unique hm ▸ hmissing)
  · have unrelated := assertTree_error failing (not_exists.mp reached)
    refine iff_of_true ⟨fun h => absurd h.1 reached, fun _ => other unrelated⟩ ?_
    rintro ⟨-, -, n, hn, -⟩
    exact reached ⟨n, hn⟩

/-- A host that shows one panel, which has not been painted. -/
def panelHost (platform : PlatformKind) (id : String) : AgentHost Unit where
  hello := fun _ => ⟨PROTOCOL_VERSION, "panel", platform, "", true, [], .none, none, none, []⟩
  snapshot := fun _ => ⟨"panel", platform, true, [UiNode.new id Role.STATUS "Panel"], none⟩
  dispatch := fun s _ => (.ok .empty, s)
  screenshot := fun _ _ => .ok .empty
  keybindings := fun _ => []
  isAppFocused := fun _ => true
  revision := fun _ => none
  eventRing := fun _ => none

def panelSpec (id : String) : AssertSpec := { target := id, inViewport := some true }

theorem reaches_panel (platform : PlatformKind) (id : String) :
    ReachesInViewport ((panelHost platform id).snapshot ()) (panelSpec id)
      (UiNode.new id Role.STATUS "Panel").label where
  present := rfl
  found := by
    refine ⟨UiNode.new id Role.STATUS "Panel", ?_, rfl⟩
    have hall : ((panelHost platform id).snapshot ()).findAll id =
        [UiNode.new id Role.STATUS "Panel"] := by
      simp [panelHost, UiTree.findAll, UiTree.subtrees, UiNode.new, UiNode.id]
    rw [UiTree.requireId, panelSpec, hall]
  name := fun _ h => absurd h (Option.not_mem_none _)
  value := fun _ h => absurd h (Option.not_mem_none _)
  role := fun _ h => absurd h (Option.not_mem_none _)
  checked := fun _ h => absurd h (Option.not_mem_none _)
  visible := fun _ h => absurd h (Option.not_mem_none _)
  asked := rfl

theorem wait_until_agrees_headless :
    let error := inViewportUnavailable "headless hosts have no painted window clip"
    let req := Request.new "1" (.waitUntil 1000 (panelSpec "panel"))
    StopsDirect .bare (panelHost .headless "panel") () {} "1" (panelSpec "panel") error ∧
      StopsMailbox error req {} none (assertReply "1"
        (assertTree .bare ((panelHost .headless "panel").snapshot ()) (panelSpec "panel"))) := by
  intro error req
  exact ((wait_until_agrees_iff .bare (panelHost .headless "panel") () {} _ (panelSpec "panel") error
    "1" req {} none rfl (by rfl)).mpr fun h => h.1 rfl).1
      ⟨⟨_, reaches_panel .headless "panel"⟩, rfl⟩

/-- A desktop app that has not painted the node it waits for: on the host `wait_until` looks again,
through the mailbox it gives up, because of the node's id. -/
theorem headless_panel_misread :
    let error := inViewportUnavailable "node `headless-panel` bounds are zero"
    let spec := panelSpec "headless-panel"
    let tree := (panelHost .desktop "headless-panel").snapshot ()
    let req := Request.new "1" (.waitUntil 1000 spec)
    assertTree .bare tree spec = .error error ∧ ¬ HeadlessInViewport tree spec ∧
      PollsDirect .bare (panelHost .desktop "headless-panel") () {} "1" spec error ∧
      StopsMailbox error req {} none (assertReply "1" (assertTree .bare tree spec)) := by
  intro error spec tree req
  have failing : assertTree .bare tree spec = .error error := by rfl
  refine ⟨failing, fun h => ?_, ?_, ?_⟩
  · cases h.2
  · have polls := waitUntilAssert_failing .bare (panelHost .desktop "headless-panel") () {} "1" spec
      error failing
    exact polls.2 fun h => by cases h.2
  · rw [failing]
    exact (asserted_failing error req {} none).1 (by decide +kernel)

end Agreement

end GpuiAgent
