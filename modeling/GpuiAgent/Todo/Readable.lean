import GpuiAgent.Client.ResponseJson
import GpuiAgent.Framework.Result
import GpuiAgent.Host.SnapshotCache
import GpuiAgent.Server.HostExit
import GpuiAgent.Todo.Atomic

namespace GpuiAgent

open Framework

/-- What the replies of a host are made of can be read, with trees down to a level, in the states of
an invariant that its ops keep. -/
structure AgentHost.Readable {σ : Type} (host : AgentHost σ) (P : σ → Prop) (levels : Nat) : Prop where
  hello : ∀ s, P s → (host.hello s).protocol < 2 ^ 32
  snapshot : ∀ s, P s → (host.snapshot s).Fits levels
  revision : ∀ s, P s → ∀ n ∈ host.revision s, n < 2 ^ 64
  dispatch : ∀ s op result, P s → (host.dispatch s op).1 = .ok result → result.value ≠ some .null
  screenshot : ∀ s spec result, P s → host.screenshot s spec = .ok result →
    result.value ≠ some .null
  keep : ∀ s op, P s → P (host.dispatch s op).2

/-- The trees that a connection keeps can be read down to a level. -/
def TreeCache.Fits (levels : Nat) (cache : TreeCache) : Prop := ∀ e ∈ cache.ring, e.2.Fits levels

section Replies

variable {levels : Nat}

theorem protocolVersion_lt : PROTOCOL_VERSION < 2 ^ 32 := by decide

theorem Response.success_fits (id : String) : (Response.success id).Fits levels :=
  ⟨protocolVersion_lt, by simp [success], by simp [success], by simp [success], by simp [success]⟩

theorem Response.err_fits (id error : String) : (Response.err id error).Fits levels :=
  ⟨protocolVersion_lt, by simp [err], by simp [err], by simp [err], by simp [err]⟩

theorem Response.Fits.withResult {resp : Response} {result : Option Json} (h : resp.Fits levels)
    (hresult : result ≠ some .null) : { resp with result }.Fits levels :=
  ⟨h.1, h.2.1, h.2.2.1, hresult, h.2.2.2.2⟩

theorem Response.Fits.withTree {resp : Response} {tree : UiTree} (h : resp.Fits levels)
    (htree : tree.Fits levels) : { resp with tree := some tree }.Fits levels :=
  ⟨h.1, h.2.1, fun _ ht => Option.some.inj ht ▸ htree, h.2.2.2⟩

theorem Response.Fits.withHello {resp : Response} {hello : HelloInfo} (h : resp.Fits levels)
    (hhello : hello.protocol < 2 ^ 32) : { resp with hello := some hello }.Fits levels :=
  ⟨h.1, fun _ hi => Option.some.inj hi ▸ hhello, h.2.2⟩

theorem Response.Fits.withRev {resp : Response} {rev : Option Nat} (h : resp.Fits levels)
    (hrev : ∀ n ∈ rev, n < 2 ^ 64) (fingerprints : Option (Std.TreeMap String UInt64)) :
    { resp with rev, fingerprints }.Fits levels :=
  ⟨h.1, h.2.1, h.2.2.1, h.2.2.2.1, hrev⟩

theorem Response.ofDispatch_fits (id : String) {result : Except String DispatchResult}
    (h : ∀ r, result = .ok r → r.value ≠ some .null) : (ofDispatch id result).Fits levels := by
  cases result with
  | error error => exact err_fits id error
  | ok r => exact (success_fits id).withResult (h r rfl)

theorem authorizeRequest_error_fits {env : Env} {req : Request} {token : Option String}
    {nonce : Option (List UInt8)} {resp : Response}
    (h : authorizeRequest env req token nonce = .error resp) : resp.Fits levels := by
  obtain ⟨error, rfl⟩ := authorizeRequest_refused h
  exact Response.err_fits req.id error

theorem addFeature_protocol (hello : HelloInfo) (feature : String) :
    (addFeature hello feature).protocol = hello.protocol := by
  unfold addFeature
  split_ifs <;> rfl

theorem fillHelloIdentity_protocol (env : Env) (hello : HelloInfo) :
    (fillHelloIdentity env hello).protocol = hello.protocol := by
  unfold fillHelloIdentity
  dsimp only
  split_ifs <;> rfl

end Replies

section Host

variable {σ : Type} {env : Env} {host : AgentHost σ} {P : σ → Prop} {levels : Nat} {s : σ}
  {cache : TreeCache}

theorem helloResponse_fits (h : host.Readable P levels) (hs : P s) (id : String)
    (token : Option String) : (helloResponse env host s id token).Fits levels := by
  unfold helloResponse
  dsimp only [List.foldl_cons, List.foldl_nil]
  apply (Response.success_fits id).withHello
  have hprotocol : (host.hello s).protocol < 2 ^ 32 := h.hello s hs
  split_ifs <;> simp only [addFeature_protocol, fillHelloIdentity_protocol, hprotocol]

theorem waitUntilReady_fits (h : host.Readable P levels) (hs : P s) (id : String)
    (token : Option String) : (waitUntilReady env host s id token).Fits levels := by
  unfold waitUntilReady
  dsimp only
  split_ifs
  · apply (Response.success_fits id).withHello
    rw [fillHelloIdentity_protocol]
    exact h.hello s hs
  · exact Response.err_fits id _

/-- A snapshot is readable, and so is what the cache then keeps. -/
theorem TreeCache.Fits.snapshot (hcache : cache.Fits levels) (h : host.Readable P levels) (hs : P s) :
    (cache.snapshot host s).1.Fits levels ∧ (cache.snapshot host s).2.Fits levels := by
  have htree := h.snapshot s hs
  have hrev : ∀ rev, effectiveRevision host s = some rev → rev < 2 ^ 64 := by
    intro rev heff
    rw [effectiveRevision] at heff
    cases hhost : host.revision s with
    | some n =>
      rw [hhost, Option.some_or] at heff
      exact h.revision s hs rev (hhost.trans heff)
    | none =>
      rw [hhost, Option.none_or] at heff
      exact htree.2 rev heff
  rcases snapshot_cases host s cache with ⟨rev, tree, -, hmem, heq⟩ | ⟨rev, heff, hnew, hring⟩ |
    ⟨-, hnew, hring⟩
  · rw [heq]
    exact ⟨hcache _ hmem, hcache⟩
  · have hstamped : ({ host.snapshot s with rev := some rev } : UiTree).Fits levels :=
      ⟨htree.1, fun n hn => Option.some.inj hn ▸ hrev rev heff⟩
    refine ⟨hnew ▸ hstamped, fun e he => ?_⟩
    rw [hring] at he
    rcases List.mem_append.mp (List.mem_of_mem_drop he) with he | he
    · exact hcache e he
    · obtain rfl := List.mem_singleton.mp he
      exact hstamped
  · refine ⟨hnew ▸ htree, fun e he => ?_⟩
    rw [hring] at he
    exact hcache e he

theorem waitUntilAssert_fits (id : String) (spec : AssertSpec) : ∀ polls (cache : TreeCache),
    (waitUntilAssert env host s id spec polls cache).1.Fits levels := by
  intro polls
  induction polls with
  | zero =>
    intro cache
    unfold waitUntilAssert
    dsimp only
    split
    · exact Response.success_fits id
    · split_ifs
      · exact Response.err_fits id _
      · exact Response.err_fits id _
  | succ polls ih =>
    intro cache
    unfold waitUntilAssert
    dsimp only
    split
    · exact Response.success_fits id
    · split_ifs
      · exact Response.err_fits id _
      · exact ih _

theorem snapshotResponse_fits (h : host.Readable P levels) (hs : P s) (hcache : cache.Fits levels)
    (id : String) (since : Option Nat) (format : Option SnapshotFormat)
    (fingerprints : Option Bool) :
    (snapshotResponse host s cache id since format fingerprints).1.Fits levels := by
  have htree := (hcache.snapshot h hs).1
  have hbase (f : Option (Std.TreeMap String UInt64)) :=
    ((@Response.success_fits levels id).withRev htree.2) f
  unfold snapshotResponse
  dsimp only
  generalize (if fingerprints = some true then some (cache.snapshot host s).1.fingerprintMap
    else none) = f
  by_cases hcompact : format = some .compact
  · rw [if_pos hcompact]
    exact (hbase f).withResult (by simp)
  · rw [if_neg hcompact]
    split
    · exact (hbase f).withTree htree
    · split_ifs
      · exact (hbase f).withResult (by simp)
      · split
        · exact (hbase f).withResult (by simp)
        · exact ((hbase f).withTree htree).withResult (by simp)

/-- Whatever comes of a request, its reply can be read, and the invariants hold on. -/
theorem handleRequestCached_fits (h : host.Readable P levels) (hs : P s) (hcache : cache.Fits levels)
    (polls : Nat) (req : Request) (token : Option String) (nonce : Option (List UInt8)) :
    (handleRequestCached env host polls s cache req token nonce).1.Fits levels ∧
      P (handleRequestCached env host polls s cache req token nonce).2.1 ∧
      (handleRequestCached env host polls s cache req token nonce).2.2.Fits levels := by
  refine ⟨?_, ?_, ?_⟩
  · have dispatched (op : Op) : (dispatchResponse host s req.id op).1.Fits levels :=
      Response.ofDispatch_fits req.id fun r hr => h.dispatch s op r hs hr
    unfold handleRequestCached
    cases hauth : authorizeRequest env req token nonce with
    | error resp => exact authorizeRequest_error_fits hauth
    | ok _ =>
      dsimp only
      split
      next => exact helloResponse_fits h hs req.id token
      next => exact helloResponse_fits h hs req.id token
      next => exact waitUntilReady_fits h hs req.id token
      next => exact waitUntilAssert_fits req.id _ polls cache
      next => exact (@Response.success_fits levels req.id).withRev (h.revision s hs) none
      next => exact snapshotResponse_fits h hs hcache req.id _ _ _
      next =>
        split
        · exact Response.err_fits req.id _
        · exact Response.ofDispatch_fits req.id fun r hr => h.screenshot s _ r hs hr
      next =>
        split
        · exact Response.success_fits req.id
        · exact Response.err_fits req.id _
      next => exact (Response.success_fits req.id).withResult (by simp [keybindingListJson])
      next =>
        split
        · exact Response.err_fits req.id _
        · exact (Response.success_fits req.id).withResult (by simp [EventPoll.toJson])
      next =>
        split
        · exact Response.err_fits req.id _
        · exact dispatched _
      next => exact dispatched _
      next =>
        split
        next => exact dispatched _
        next =>
          split
          · exact Response.err_fits req.id _
          · exact dispatched _
  · rcases handleRequestCached_state env host polls s cache req token nonce with heq | ⟨-, -, -, heq⟩
    · rw [heq]
      exact hs
    · rw [heq]
      exact h.keep s req.op hs
  · exact TreeCache.handleRequestCached_cache (fun cache hc => (TreeCache.Fits.snapshot hc h hs).2)
      hcache

end Host

/-- What a thread keeps, and the reply it has yet to write, can be read down to a level. -/
def HostPhase.Fits (levels : Nat) : HostPhase → Prop
  | reading cache => cache.Fits levels
  | replying cache _ resp => cache.Fits levels ∧ resp.Fits levels
  | closed => True

def HostPhase.isReplying : HostPhase → Bool
  | replying .. => true
  | _ => false

namespace HostServer

variable {σ ι : Type} {env : Env} {parse : List UInt8 → Except String Request}
  {token : Option String} {limits : ServerLimits} {host : AgentHost σ} {react : σ → ι → σ}
  {P : σ → Prop} {levels : Nat} {s : HostServer σ}

/-- The host keeps its invariant, and every thread can be read. -/
structure ReadInv (P : σ → Prop) (levels : Nat) (s : HostServer σ) : Prop where
  app : P s.app
  threads : ∀ thread ∈ s.threads, thread.phase.Fits levels

theorem readInv_start {app : σ} (h : P app) : ReadInv P levels { app } where
  app := h
  threads := fun _ ht => absurd ht List.not_mem_nil

theorem ReadInv.set (h : ReadInv P levels s) {app : σ} (happ : P app) (i : Nat)
    {thread : ConnThread HostPhase} (hthread : thread.phase.Fits levels) (shutdown : Bool) :
    ReadInv P levels ⟨app, s.threads.set i thread, shutdown⟩ where
  app := happ
  threads := by
    intro t ht
    rcases List.mem_or_eq_of_mem_set ht with ht | rfl
    · exact h.threads t ht
    · exact hthread

theorem ReadInv.accept (h : ReadInv P levels s) (randomNonce : Option (List UInt8))
    (input : Incoming) : ReadInv P levels (s.accept token limits randomNonce input) := by
  unfold HostServer.accept
  dsimp only
  split_ifs
  · exact h
  · refine ⟨h.app, fun t ht => ?_⟩
    rcases List.mem_append.mp ht with ht | ht
    · exact h.threads t ht
    · obtain rfl := List.mem_singleton.mp ht
      unfold ConnThread.begin
      split
      · trivial
      · exact fun e he => absurd he List.not_mem_nil

theorem ReadInv.line (h : ReadInv P levels s) (hhost : host.Readable P levels) (i polls : Nat) :
    ReadInv P levels (s.line env parse token host i polls) := by
  unfold HostServer.line
  cases hi : s.threads[i]? with
  | none => exact h
  | some thread =>
    dsimp only
    cases hphase : thread.phase with
    | replying cache req resp => exact h
    | closed => exact h
    | reading cache =>
      have hcache : cache.Fits levels := by
        have hthread := h.threads thread (List.mem_of_getElem? hi)
        rwa [hphase] at hthread
      obtain ⟨-, hround, -⟩ := thread.next_cases env parse token .closed
      dsimp only
      cases (thread.next env parse token .closed).2 with
      | none =>
        apply h.set h.app i
        rw [hphase] at hround
        rcases hround with heq | heq
        · rw [heq]
          exact hcache
        · rw [heq]
          trivial
      | some req =>
        obtain ⟨hresp, happ, hkept⟩ := handleRequestCached_fits hhost h.app hcache polls req token
          (thread.next env parse token .closed).1.nonce
        refine h.set happ i ?_ s.shutdown
        exact ⟨hkept, hresp⟩

theorem ReadInv.settle (h : ReadInv P levels s) (i : Nat) : ReadInv P levels (s.settle i) := by
  unfold HostServer.settle
  cases hi : s.threads[i]? with
  | none => exact h
  | some thread =>
    dsimp only
    cases hphase : thread.phase with
    | reading cache => exact h
    | closed => exact h
    | replying cache req resp =>
      have hthread := h.threads thread (List.mem_of_getElem? hi)
      rw [hphase] at hthread
      dsimp only
      split_ifs
      · refine h.set h.app i ?_ true
        trivial
      · refine h.set h.app i ?_ s.shutdown
        exact hthread.1

/-- A step keeps all of it, where the changes that no connection asks for keep the host's part. -/
theorem ReadInv.step (h : ReadInv P levels s) (hhost : host.Readable P levels)
    (hreact : ∀ s input, P s → P (react s input)) (e : HostEvent ι) :
    ReadInv P levels (s.step env parse token limits host react e) := by
  cases e with
  | accept randomNonce input => exact h.accept randomNonce input
  | line i polls => exact h.line hhost i polls
  | settle i => exact h.settle i
  | react input => exact ⟨hreact s.app input h.app, h.threads⟩

/-- A client reads every reply that a thread has yet to write as what the host said. -/
def RepliesRead (variantOf : List String → Json → Option Nat) (hostOs : String) (levels : Nat)
    (s : HostServer σ) : Prop :=
  ∀ thread ∈ s.threads, ∀ cache req resp, thread.phase = .replying cache req resp →
    ∃ back, decodeResponse variantOf hostOs levels (encodeResponse resp) = some back ∧
      back.SameAs resp

theorem ReadInv.repliesRead (h : ReadInv P levels s) (variantOf : List String → Json → Option Nat)
    (hostOs : String) : RepliesRead variantOf hostOs levels s := by
  intro thread hthread cache req resp hphase
  have hfits := h.threads thread hthread
  rw [hphase] at hfits
  exact ResponseJson.decodeResponse_encodeResponse variantOf hostOs levels hfits.2

theorem ReadInv.run (hhost : host.Readable P levels) (hreact : ∀ s input, P s → P (react s input))
    (events : List (HostEvent ι)) : ∀ {s : HostServer σ}, ReadInv P levels s →
      ReadInv P levels (events.foldl (HostServer.step env parse token limits host react) s) := by
  induction events with
  | nil => exact fun h => h
  | cons e events ih => exact fun h => ih (h.step hhost hreact e)

end HostServer

namespace TodoStore

/-- A call that succeeds has no null for its value. -/
def NoNull (r : Except String DispatchResult × TodoStore) : Prop :=
  ∀ result, r.1 = .ok result → result.value ≠ some .null

section Calls

variable (s : TodoStore)

theorem noNull_error {error : String} {t : TodoStore} : NoNull (.error error, t) := nofun

theorem noNull_empty {t : TodoStore} : NoNull (.ok .empty, t) := by
  intro result h
  obtain rfl := Except.ok.inj h
  nofun

theorem noNull_json {v : Json} {t : TodoStore} (h : v ≠ .null) : NoNull (.ok (.json v), t) := by
  intro result hresult
  obtain rfl := Except.ok.inj hresult
  exact fun hv => h (Option.some.inj hv)

theorem noNull_withTodo (r : Except String Todo × TodoStore) : NoNull (withTodo r) := by
  obtain ⟨result, t⟩ := r
  cases result with
  | error error => exact noNull_error
  | ok todo => exact noNull_json (by simp [Todo.toJson])

theorem click_noNull (target : String) : NoNull (s.click target) := by
  unfold click
  split_ifs
  · exact noNull_json (by simp)
  · exact noNull_empty
  · exact noNull_empty
  · exact noNull_json (by simp)
  · exact noNull_withTodo _
  · split
    · exact noNull_withTodo _
    · split
      · exact noNull_withTodo _
      · split
        · exact noNull_withTodo _
        · exact noNull_error

theorem key_noNull (target k : String) : NoNull (s.key target k) := by
  unfold key
  split_ifs
  · exact noNull_withTodo _
  · exact noNull_empty
  · exact noNull_error

theorem performKeybinding_noNull (binding : String) : NoNull (s.performKeybinding binding) := by
  unfold performKeybinding
  split_ifs
  · exact noNull_json (by simp)
  · exact noNull_json (by simp)
  · exact noNull_json (by simp)
  · exact noNull_error

theorem fireKeybinding_noNull (op : Op) : NoNull (s.fireKeybinding op) := by
  unfold fireKeybinding
  split_ifs
  · exact noNull_error
  · split
    · exact performKeybinding_noNull _ _
    · exact noNull_error

theorem invoke_noNull (name : String) (args : Json) : NoNull (s.invoke name args) := by
  unfold invoke
  split
  · split
    · exact noNull_withTodo _
    · exact noNull_error
  · split
    · exact noNull_withTodo _
    · exact noNull_error
  · split
    · exact noNull_withTodo _
    · exact noNull_error
  · exact noNull_json (by simp)
  · split
    · exact noNull_empty
    · exact noNull_empty
    · exact noNull_error
    · exact noNull_error
  · exact noNull_json (by simp)
  · exact noNull_error

end Calls

theorem screenshot_ne_ok (env : Env) (s : TodoStore) (spec : ScreenshotSpec)
    (result : DispatchResult) : s.screenshot env spec ≠ .ok result := by
  intro h
  unfold screenshot at h
  obtain ⟨path, -, h⟩ := bind_eq_ok.mp h
  obtain ⟨confined, -, h⟩ := bind_eq_ok.mp h
  cases h

theorem dispatch_noNull (env : Env) (s : TodoStore) (op : Op) : NoNull (s.dispatch env op) := by
  by_cases hv : op.isVirtualInput = true
  · unfold dispatch
    rw [if_pos hv]
    exact noNull_error
  · unfold dispatch
    rw [if_neg hv]
    cases op with
    | click target delivery fp => exact click_noNull s target
    | type target text delivery fp =>
      dsimp only
      unfold typeInto
      split_ifs
      · exact noNull_error
      · exact noNull_json (by simp)
    | setValue target value fp =>
      dsimp only
      unfold setValue
      split_ifs
      · exact noNull_error
      · exact noNull_json (by simp)
    | key target k delivery fp => exact key_noNull s target k
    | keybinding binding chord scope confirm activate => exact fireKeybinding_noNull s _
    | keybindings => exact noNull_json (by simp [keybindingListJson])
    | invoke name args =>
      have hinvoke := invoke_noNull s name args
      dsimp only
      split
      · exact hinvoke
      · exact hinvoke
    | screenshot path mode target maxHeightPx =>
      exact fun result h => absurd h (screenshot_ne_ok env s _ result)
    | _ => exact noNull_empty

section Tree

open ResponseJson

variable {levels : Nat} {t : UiNode}

theorem new_lossless (levels : Nat) (id role name : String) :
    (nodeValue (levels + 1)).Lossless (.new id role name) :=
  (nodeFields_lossless _ _ _).mpr ⟨Bounds.zero_finite,
    fun _ hc => absurd hc List.not_mem_nil⟩

theorem withChildren_lossless (h : (nodeValue (levels + 1)).Lossless t) {children : List UiNode}
    (hchildren : ∀ c ∈ children, (nodeValue levels).Lossless c) :
    (nodeValue (levels + 1)).Lossless (t.withChildren children) := by
  obtain ⟨a, cs⟩ := t
  exact (nodeFields_lossless _ _ _).mpr ⟨((nodeFields_lossless _ a cs).mp h).1, hchildren⟩

theorem withChild_lossless (h : (nodeValue (levels + 1)).Lossless t) {child : UiNode}
    (hchild : (nodeValue levels).Lossless child) :
    (nodeValue (levels + 1)).Lossless (t.withChild child) := by
  obtain ⟨a, cs⟩ := t
  obtain ⟨hbounds, hcs⟩ := (nodeFields_lossless _ a cs).mp h
  refine (nodeFields_lossless _ _ _).mpr ⟨hbounds, fun c hc => ?_⟩
  rcases List.mem_append.mp hc with hc | hc
  · exact hcs c hc
  · rwa [List.mem_singleton.mp hc]

theorem withValue_lossless (h : (nodeValue (levels + 1)).Lossless t) (value : String) :
    (nodeValue (levels + 1)).Lossless (t.withValue value) := by
  obtain ⟨a, cs⟩ := t
  exact (nodeFields_lossless _ _ _).mpr ((nodeFields_lossless _ a cs).mp h)

theorem withChecked_lossless (h : (nodeValue (levels + 1)).Lossless t) (checked : Bool) :
    (nodeValue (levels + 1)).Lossless (t.withChecked checked) := by
  obtain ⟨a, cs⟩ := t
  exact (nodeFields_lossless _ _ _).mpr ((nodeFields_lossless _ a cs).mp h)

/-- Hiding changes no bounds and no depth. -/
theorem hideAll_lossless (F : List UiNode) : ∀ levels, (∀ t ∈ F, (nodeValue levels).Lossless t) →
    ∀ t ∈ UiNode.hideAll F, (nodeValue levels).Lossless t := by
  induction F using Forest.induction with
  | nil => exact fun _ _ t ht => absurd ht List.not_mem_nil
  | cons a cs ts hc ht =>
    intro levels h t hmem
    obtain ⟨hroot, hts⟩ := List.forall_mem_cons.mp h
    rw [UiNode.hideAll, UiNode.withVisibleDeep] at hmem
    rcases List.mem_cons.mp hmem with rfl | hmem
    · cases levels with
      | zero => exact hroot
      | succ levels =>
        obtain ⟨hbounds, hcs⟩ := (nodeFields_lossless _ a cs).mp hroot
        exact (nodeFields_lossless _ _ _).mpr ⟨hbounds, hc levels hcs⟩
    · exact ht levels hts t hmem

variable (s : TodoStore)

theorem itemNode_lossless (item : Todo) : (nodeValue 2).Lossless (itemNode item) :=
  withChild_lossless (withChild_lossless (withChecked_lossless (new_lossless 1 _ _ _) item.done)
    (withChecked_lossless (new_lossless 0 _ _ _) item.done)) (new_lossless 0 _ _ _)

theorem listChildren_lossless : ∀ c ∈ s.listChildren, (nodeValue 2).Lossless c := by
  unfold listChildren
  split_ifs
  · intro c hc
    rw [List.mem_singleton.mp hc]
    exact new_lossless 1 _ _ _
  · intro c hc
    obtain ⟨item, -, rfl⟩ := List.mem_map.mp hc
    exact itemNode_lossless item

theorem pageNode_lossless : (nodeValue 5).Lossless s.pageNode := by
  unfold pageNode
  cases s.page with
  | todos =>
    have hlist : (nodeValue 3).Lossless ((UiNode.new ids.LIST Role.LIST "Todos").withChildren
        s.listChildren) := withChildren_lossless (new_lossless 2 _ _ _) s.listChildren_lossless
    exact withChild_lossless (withChild_lossless (withChild_lossless (withChild_lossless
      (new_lossless 4 _ _ _) (withValue_lossless (new_lossless 3 _ _ _) s.draft))
        (new_lossless 3 _ _ _)) (withChild_lossless (new_lossless 3 _ _ _) hlist))
          (new_lossless 3 _ _ _)
  | settings =>
    exact withChild_lossless (new_lossless 4 _ _ _)
      (withChecked_lossless (new_lossless 3 _ _ _) s.confirmDelete)

theorem navNode_lossless : (nodeValue 5).Lossless s.navNode := by
  have hnav : (nodeValue 5).Lossless ((UiNode.new ids.NAV Role.NAVIGATION "Todo")
      |>.withChild (UiNode.new ids.NAV_TODOS Role.BUTTON "Todos")
      |>.withChild (UiNode.new ids.NAV_SETTINGS Role.BUTTON "Settings")) :=
    withChild_lossless (withChild_lossless (new_lossless 4 _ _ _) (new_lossless 3 _ _ _))
      (new_lossless 3 _ _ _)
  unfold navNode
  dsimp only
  split_ifs
  · exact hnav
  · exact hideAll_lossless [_] 5 (fun t ht => List.mem_singleton.mp ht ▸ hnav) _ List.mem_cons_self

/-- The tree of the store has six levels, and no bounds. -/
theorem tree_fits (hlevels : 6 ≤ levels) (hrev : s.rev < 2 ^ 64) : s.tree.Fits levels := by
  have hwindow : (nodeValue 6).Lossless ((UiNode.new ids.WINDOW Role.WINDOW "Agent Todo")
      |>.withChild (UiNode.new ids.NAV_TOGGLE Role.BUTTON
        (if s.sidebarOpen then "Hide sidebar" else "Show sidebar"))
      |>.withChild s.navNode
      |>.withChild s.pageNode) :=
    withChild_lossless (withChild_lossless (withChild_lossless (new_lossless 5 _ _ _)
      (new_lossless 4 _ _ _)) s.navNode_lossless) s.pageNode_lossless
  have hrows := (forest_lossless 6 s.tree.nodes).mp fun t ht => by
    rw [List.mem_singleton.mp ht]
    exact hwindow
  constructor
  · intro row hrow
    obtain ⟨hlen, hbounds⟩ := hrows row hrow
    exact ⟨lt_of_lt_of_le hlen hlevels, hbounds⟩
  · intro n hn
    obtain rfl := Option.some.inj hn
    exact hrev

end Tree

section Serve

variable (env : Env)

theorem wrappingAdd_lt (n : Nat) : wrappingAdd n 1 < 2 ^ 64 := Nat.mod_lt _ (by decide)

theorem Effect.rev_lt {s t : TodoStore} (h : Effect s t) (hs : s.rev < 2 ^ 64) :
    t.rev < 2 ^ 64 := by
  cases h with
  | bumped rev =>
    rw [rev]
    exact wrappingAdd_lt s.rev
  | quiet rev _ => rwa [rev]

theorem dispatch_rev_lt (s : TodoStore) (op : Op) (hs : s.rev < 2 ^ 64) :
    (s.dispatch env op).2.rev < 2 ^ 64 := by
  rcases dispatch_effect env s op with ⟨h, -⟩ | ⟨-, h, -⟩
  · exact h.rev_lt hs
  · rwa [h]

theorem call_rev_lt (s : TodoStore) (c : StoreCall) (hs : s.rev < 2 ^ 64) :
    (s.call env c).rev < 2 ^ 64 := by
  by_cases hc : ∃ op, c = .agent op
  · obtain ⟨op, rfl⟩ := hc
    exact dispatch_rev_lt env s op hs
  · exact (call_effect env s c fun op h => hc ⟨op, h⟩).rev_lt hs

theorem agentHost_readable {levels : Nat} (hlevels : 6 ≤ levels) :
    (agentHost env).Readable (fun s => s.rev < 2 ^ 64) levels where
  hello := fun _ _ => protocolVersion_lt
  snapshot := fun s hs => s.tree_fits hlevels hs
  revision := fun s hs n hn => by
    obtain rfl := Option.some.inj hn
    exact hs
  dispatch := fun s op result _ h => dispatch_noNull env s op result h
  screenshot := fun s spec result _ h => absurd h (screenshot_ne_ok env s spec result)
  keep := fun s op hs => dispatch_rev_lt env s op hs

variable (parse : List UInt8 → Except String Request) (token : Option String)
  (limits : ServerLimits) (variantOf : List String → Json → Option Nat) (hostOs : String)

/-- In every run of `todo-headless serve`, with its connections in any interleaving and the store
changed by others as well, a client reads each reply as what the host said. -/
theorem serve_repliesRead {levels : Nat} (hlevels : 6 ≤ levels)
    (events : List (HostEvent StoreCall)) :
    HostServer.RepliesRead variantOf hostOs levels
      (events.foldl (HostServer.step env parse token limits (agentHost env) (call env))
        { app := new .headless }) :=
  ((HostServer.readInv_start (by decide)).run (agentHost_readable env hlevels)
    (call_rev_lt env) events).repliesRead variantOf hostOs

end Serve

/-- A thread that has taken a `snapshot` and not yet written its reply. -/
def snapshotTaken : HostServer TodoStore :=
  ([.accept none { bytes := [63, NEWLINE] }, .line 0 0] : List (HostEvent StoreCall)).foldl
    (HostServer.step .bare (fun _ => .ok (.new "1" (.snapshot none none none))) none ⟨64, 2⟩
      (agentHost .bare) (call .bare)) { app := new .headless }

theorem serve_repliesRead_snapshot :
    snapshotTaken.threads.map (fun thread => thread.phase.isReplying) = [true] ∧
      HostServer.RepliesRead (fun _ _ => none) "linux" 62 snapshotTaken :=
  ⟨by decide +kernel, serve_repliesRead .bare _ none ⟨64, 2⟩ _ _ (by decide) _⟩

end TodoStore

end GpuiAgent
