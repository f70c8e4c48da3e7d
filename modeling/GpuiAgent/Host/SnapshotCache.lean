import GpuiAgent.Framework.Versioned
import GpuiAgent.Host.Dispatch

namespace GpuiAgent

open Framework

/-- A tree with its revision taken off. -/
def UiTree.withoutRev (t : UiTree) : UiTree := { t with rev := none }

/-- Trees that are equal up to the revision have the same nodes. -/
theorem UiTree.nodes_eq_of_withoutRev_eq {t u : UiTree} (h : t.withoutRev = u.withoutRev) :
    t.nodes = u.nodes :=
  congrArg (fun t => t.nodes) h

theorem diffTrees_congr {old old' new new' : UiTree} (ho : old.withoutRev = old'.withoutRev)
    (hn : new.withoutRev = new'.withoutRev) : diffTrees old new = diffTrees old' new' := by
  have hindex {t u : UiTree} (h : t.withoutRev = u.withoutRev) : index t = index u := by
    unfold index UiTree.subtrees
    rw [UiTree.nodes_eq_of_withoutRev_eq h]
  unfold diffTrees
  rw [hindex ho, hindex hn]

section Host

variable {σ : Type} (host : AgentHost σ)

/-- The revision a snapshot of the host is kept under. -/
def effectiveRevision (s : σ) : Option Nat := (host.revision s).or (host.snapshot s).rev

/-- The host's trees, up to their revisions. -/
def AgentHost.versioned : Versioned σ Nat UiTree where
  version := effectiveRevision host
  read := fun s => (host.snapshot s).withoutRev

namespace TreeCache

def entries (cache : TreeCache) : List (Nat × UiTree) :=
  cache.ring.map fun e => (e.1, e.2.withoutRev)

/-- What the cache keeps of the states it has seen. -/
structure Inv (seen : List σ) (cache : TreeCache) : Prop where
  sound : host.versioned.Sound seen cache.entries
  stamped : ∀ e ∈ cache.ring, e.2.rev = some e.1
  bounded : cache.ring.length ≤ REV_RING_DEPTH

variable {host} {seen : List σ} {cache : TreeCache}

theorem inv_start (seen : List σ) : Inv host seen {} where
  sound := Versioned.sound_nil seen
  stamped := fun _ he => absurd he List.not_mem_nil
  bounded := Nat.zero_le _

theorem Inv.mono {seen' : List σ} (h : Inv host seen cache) (hs : seen ⊆ seen') :
    Inv host seen' cache :=
  ⟨h.sound.mono hs, h.stamped, h.bounded⟩

/-- A snapshot is the newest entry, or a new tree that is kept if it has a revision. -/
theorem snapshot_cases (host : AgentHost σ) (s : σ) (cache : TreeCache) :
    (∃ rev tree, host.revision s = some rev ∧ (rev, tree) ∈ cache.ring ∧
      cache.snapshot host s = (tree, cache)) ∨
    (∃ rev, effectiveRevision host s = some rev ∧
      (cache.snapshot host s).1 = { host.snapshot s with rev := some rev } ∧
      (cache.snapshot host s).2.ring = (cache.ring ++ [(rev, { host.snapshot s with
        rev := some rev })]).drop (cache.ring.length + 1 - REV_RING_DEPTH)) ∨
    (effectiveRevision host s = none ∧ (cache.snapshot host s).1 = host.snapshot s ∧
      (cache.snapshot host s).2.ring = cache.ring) := by
  unfold snapshot
  dsimp only
  split
  next found rev tree hit =>
    left
    obtain ⟨reported, hrev, hnewest⟩ := Option.bind_eq_some_iff.mp hit
    obtain ⟨hlast, hkey⟩ := Option.filter_eq_some_iff.mp hnewest
    have hkey : rev = reported := by simpa using hkey
    exact ⟨rev, tree, hkey ▸ hrev, List.mem_of_getLast? hlast, rfl⟩
  next missed =>
    right
    cases hrev : (host.revision s).or (host.snapshot s).rev with
    | some rev => exact .inl ⟨rev, hrev, rfl, by simp⟩
    | none => exact .inr ⟨hrev, rfl, rfl⟩

/-- Taking a snapshot keeps the invariant. -/
theorem Inv.snapshot (h : Inv host seen cache) (s : σ) :
    Inv host (s :: seen) (cache.snapshot host s).2 := by
  have grown := h.mono (List.subset_cons_self s seen)
  rcases snapshot_cases host s cache with ⟨rev, tree, -, -, heq⟩ | ⟨rev, hrev, -, hring⟩ |
    ⟨-, -, hring⟩
  · rw [heq]
    exact grown
  · refine ⟨?_, ?_, ?_⟩
    · have pushed := h.sound.push (s := s) (v := rev) hrev
      refine pushed.subset fun e he => ?_
      unfold entries at he ⊢
      rw [hring, List.map_drop, List.map_append] at he
      exact List.mem_of_mem_drop he
    · intro e he
      rw [hring] at he
      rcases List.mem_append.mp (List.mem_of_mem_drop he) with he | he
      · exact h.stamped e he
      · obtain rfl := List.mem_singleton.mp he
        rfl
    · rw [hring, List.length_drop, List.length_append, List.length_singleton]
      omega
  · refine ⟨?_, fun e he => h.stamped e (hring ▸ he), hring ▸ h.bounded⟩
    unfold entries
    rw [hring]
    exact grown.sound

/-- A snapshot is the host's tree at the host's revision. -/
theorem Inv.snapshot_fresh (h : Inv host seen cache) {s : σ}
    (determined : host.versioned.Determined (s :: seen)) :
    (cache.snapshot host s).1.withoutRev = (host.snapshot s).withoutRev ∧
      (cache.snapshot host s).1.rev = effectiveRevision host s := by
  rcases snapshot_cases host s cache with ⟨rev, tree, hrev, hmem, heq⟩ | ⟨rev, hrev, htree, -⟩ |
    ⟨hrev, htree, -⟩
  · have hversion : effectiveRevision host s = some rev := by simp [effectiveRevision, hrev]
    have hentry : (rev, tree.withoutRev) ∈ cache.entries :=
      List.mem_map.mpr ⟨(rev, tree), hmem, rfl⟩
    have hread := (h.sound.mono (List.subset_cons_self s seen)).eq_read determined hentry
      List.mem_cons_self hversion
    rw [heq]
    exact ⟨hread, (h.stamped _ hmem).trans hversion.symm⟩
  · rw [htree]
    exact ⟨rfl, hrev.symm⟩
  · rw [htree]
    refine ⟨rfl, hrev.symm ▸ ?_⟩
    unfold effectiveRevision at hrev
    exact (Option.or_eq_none_iff.mp hrev).2

/-- A tree of the ring is the host's tree at that revision. -/
theorem Inv.treeAt (h : Inv host seen cache) {rev : Nat} {tree : UiTree}
    (hat : cache.treeAt rev = some tree) :
    ∃ s ∈ seen, effectiveRevision host s = some rev ∧
      tree.withoutRev = (host.snapshot s).withoutRev := by
  obtain ⟨e, he, rfl⟩ := Option.map_eq_some_iff.mp hat
  have hkey : e.1 = rev := by simpa using List.find?_some he
  have hentry : (e.1, e.2.withoutRev) ∈ cache.entries :=
    List.mem_map.mpr ⟨e, List.mem_of_find?_eq_some he, rfl⟩
  obtain ⟨s, hs, hversion, hread⟩ := h.sound _ hentry
  exact ⟨s, hs, hkey ▸ hversion, hread⟩

/-- Requests touch the cache through `snapshot` only. -/
theorem handleRequestCached_cache {P : TreeCache → Prop} {env : Env} {polls : Nat} {s : σ}
    {req : Request} {token : Option String} {nonce : Option (List UInt8)}
    (snapshot : ∀ cache, P cache → P (cache.snapshot host s).2) (h : P cache) :
    P (handleRequestCached env host polls s cache req token nonce).2.2 := by
  have waits (id : String) (spec : AssertSpec) : ∀ polls cache, P cache →
      P (waitUntilAssert env host s id spec polls cache).2 := by
    intro polls
    induction polls with
    | zero =>
      intro cache h
      unfold waitUntilAssert
      dsimp only
      split
      · exact snapshot cache h
      · split_ifs <;> exact snapshot cache h
    | succ polls ih =>
      intro cache h
      unfold waitUntilAssert
      dsimp only
      split
      · exact snapshot cache h
      · split_ifs
        · exact snapshot cache h
        · exact ih _ (snapshot cache h)
  unfold handleRequestCached
  split
  next => exact h
  next =>
    split <;> dsimp only
    next => exact h
    next => exact h
    next => exact h
    next => exact waits _ _ _ _ h
    next => exact h
    next => exact snapshot cache h
    next => split <;> exact h
    next => split <;> exact snapshot cache h
    next => exact h
    next => split <;> exact h
    next => split <;> exact h
    next => exact h
    next =>
      split
      next => exact h
      next => split <;> exact snapshot cache h

end TreeCache

/-- One request of a connection: the host's state when it is handled, and how many times a
`wait_until` looks again. -/
structure HostCall (σ : Type) where
  state : σ
  polls : Nat
  request : Request

namespace TreeCache

/-- The cache of a connection after `calls`. Anything may change the host between two of them. -/
def session (env : Env) (token : Option String) (nonce : Option (List UInt8))
    (calls : List (HostCall σ)) : TreeCache :=
  calls.foldl (fun cache call =>
    (handleRequestCached env host call.polls call.state cache call.request token nonce).2.2) {}

variable {host} {env : Env} {token : Option String} {nonce : Option (List UInt8)}

theorem Inv.request (h : Inv host seen cache) (call : HostCall σ) :
    Inv host (call.state :: seen)
      (handleRequestCached env host call.polls call.state cache call.request token nonce).2.2 := by
  apply handleRequestCached_cache
  · intro cache h
    exact (h.snapshot call.state).mono (by simp)
  · exact h.mono (List.subset_cons_self _ _)

theorem inv_session (calls : List (HostCall σ)) :
    Inv host (calls.map HostCall.state) (session host env token nonce calls) := by
  induction calls using List.reverseRecOn with
  | nil => exact inv_start []
  | append_singleton calls call ih =>
    unfold session at ih ⊢
    rw [List.foldl_append]
    refine (ih.request call).mono ?_
    intro s hs
    simpa [or_comm] using hs

end TreeCache

def UNCHANGED : Json := .object [("unchanged", .bool true)]

/-- What the reply to a `snapshot` that is not compact owes to a client that has seen the host in
the states `seen` and asks for the changes since `since`. -/
structure SnapshotReply (seen : List σ) (s : σ) (since : Option Nat) (resp : Response) : Prop where
  unchanged_iff : resp.result = some UNCHANGED ↔
    ∃ rev, since = some rev ∧ effectiveRevision host s = some rev
  diff : ∀ d, resp.result = some (.object [("diff", d)]) →
    ∃ rev, since = some rev ∧ ∃ old ∈ seen, effectiveRevision host old = some rev ∧
      d = (diffTrees (host.snapshot old) (host.snapshot s)).toJson
  full : resp.result ≠ some UNCHANGED → (∀ d, resp.result ≠ some (.object [("diff", d)])) →
    ∃ tree, resp.tree = some tree ∧ tree.withoutRev = (host.snapshot s).withoutRev

theorem snapshotResponse_reply {seen : List σ} {cache : TreeCache} {s : σ}
    (h : TreeCache.Inv host seen cache) (determined : host.versioned.Determined (s :: seen))
    (id : String) (since : Option Nat) {format : Option SnapshotFormat}
    (hformat : format ≠ some .compact) (fingerprints : Option Bool) :
    SnapshotReply host (s :: seen) s since
      (snapshotResponse host s cache id since format fingerprints).1 := by
  obtain ⟨htree, hrev⟩ := h.snapshot_fresh determined
  have hkept := h.snapshot s
  unfold snapshotResponse
  dsimp only
  rw [if_neg hformat, hrev]
  cases since with
  | none =>
    refine ⟨?_, fun d hd => by simp [Response.success] at hd, fun _ _ => ⟨_, rfl, htree⟩⟩
    simp [Response.success]
  | some rev =>
    dsimp only
    by_cases hcurrent : effectiveRevision host s = some rev
    · rw [if_pos hcurrent]
      refine ⟨⟨fun _ => ⟨rev, rfl, hcurrent⟩, fun _ => rfl⟩, fun d hd => ?_, fun hu => ?_⟩
      · simp at hd
      · exact absurd rfl hu
    · rw [if_neg hcurrent]
      have hnot : ¬ ∃ r, some rev = some r ∧ effectiveRevision host s = some r := by
        rintro ⟨r, hr, hs⟩
        exact hcurrent (hr ▸ hs)
      split
      next old hold =>
        obtain ⟨current, -, hat⟩ := Option.bind_eq_some_iff.mp hold
        obtain ⟨earlier, hseen, hversion, hread⟩ := hkept.treeAt hat
        refine ⟨iff_of_false (by simp [UNCHANGED]) hnot, fun d hd => ?_, fun _ hd => ?_⟩
        · refine ⟨rev, rfl, earlier, hseen, hversion, ?_⟩
          rw [← diffTrees_congr hread htree]
          simpa using hd.symm
        · exact absurd rfl (hd _)
      next =>
        refine ⟨iff_of_false (by simp [UNCHANGED]) hnot, fun d hd => ?_, fun _ _ => ?_⟩
        · simp at hd
        · exact ⟨_, rfl, htree⟩

end Host

/-- At every point of a connection, to a host that never gives two trees under one revision, the
cache is as good as the host. -/
theorem TreeCache.session_faithful {σ : Type} (env : Env) (host : AgentHost σ)
    (token : Option String) (nonce : Option (List UInt8)) (calls : List (HostCall σ)) (s : σ)
    (determined : host.versioned.Determined (s :: calls.map HostCall.state)) :
    let seen := s :: calls.map HostCall.state
    let cache := session host env token nonce calls
    (cache.snapshot host s).1.withoutRev = (host.snapshot s).withoutRev ∧
    (∀ rev tree, cache.treeAt rev = some tree →
      (∃ old ∈ seen, effectiveRevision host old = some rev) ∧
      ∀ old ∈ seen, effectiveRevision host old = some rev →
        tree.withoutRev = (host.snapshot old).withoutRev) ∧
    (∀ polls req since format fingerprints, authorizeRequest env req token nonce = .ok () →
      req.op = .snapshot since format fingerprints → format ≠ some .compact →
      SnapshotReply host seen s since
        (handleRequestCached env host polls s cache req token nonce).1) ∧
    cache.ring.length ≤ REV_RING_DEPTH := by
  intro seen cache
  have inv : Inv host (calls.map HostCall.state) cache := inv_session calls
  refine ⟨(inv.snapshot_fresh determined).1, fun rev tree hat => ?_, ?_, inv.bounded⟩
  · obtain ⟨old, hold, hversion, hread⟩ := inv.treeAt hat
    have hmem : old ∈ seen := List.mem_cons_of_mem s hold
    refine ⟨⟨old, hmem, hversion⟩, fun other hother hv => ?_⟩
    exact hread.trans (determined old hmem other hother rev hversion hv)
  · intro polls req since format fingerprints authorized hop hformat
    unfold handleRequestCached
    rw [authorized]
    dsimp only
    rw [hop]
    exact snapshotResponse_reply host inv determined req.id since hformat fingerprints

/-- A host that counts, and shows its count. -/
def countingHost : AgentHost Nat where
  hello := fun _ => ⟨PROTOCOL_VERSION, "count", .headless, "", true, [], .none, none, none, []⟩
  snapshot := fun n =>
    ⟨"count", .headless, true, [UiNode.new "count" Role.STATUS (toString n)], none⟩
  dispatch := fun n _ => (.ok .empty, n + 1)
  screenshot := fun _ _ => .ok .empty
  keybindings := fun _ => []
  isAppFocused := fun _ => true
  revision := fun n => some n
  eventRing := fun _ => none

theorem determined_countingHost (seen : List Nat) : countingHost.versioned.Determined seen := by
  intro n _ m _ rev hn hm
  have hn : n = rev := Option.some.inj hn
  have hm : m = rev := Option.some.inj hm
  rw [hn, hm]

theorem TreeCache.session_faithful_counting :
    SnapshotReply countingHost [1, 0] 1 (some 0)
      (handleRequestCached .bare countingHost 0 1
        (session countingHost .bare none none [⟨0, 0, .new "1" (.snapshot none none none)⟩])
        (.new "2" (.snapshot (some 0) none none)) none none).1 :=
  (session_faithful .bare countingHost none none [⟨0, 0, .new "1" (.snapshot none none none)⟩] 1
    (determined_countingHost [1, 0])).2.2.1 0 (.new "2" (.snapshot (some 0) none none)) (some 0)
      none none (authorizeRequest_untokened rfl) rfl (by decide)

end GpuiAgent
