import GpuiAgent.Framework.Run
import GpuiAgent.Host.SnapshotCache
import GpuiAgent.Server.Listener

namespace GpuiAgent

open Framework

section Host

variable {σ ι : Type} (env : Env) (parse : List UInt8 → Except String Request)
  (token : Option String) (limits : ServerLimits) (host : AgentHost σ) (react : σ → ι → σ)

/-- The reply to a request by a connection whose cache knows the states `seen`, beside the reply
without a cache: a diff from one of them may stand in for the tree, and nothing else differs. -/
def Answers (seen : List σ) (req : Request) (resp plain : Response) : Prop :=
  resp = plain ∨ ∃ since format fingerprints tree old,
    req.op = .snapshot (some since) format fingerprints ∧ format ≠ some .compact ∧
    plain.tree = some tree ∧ tree.rev ≠ some since ∧
    old ∈ seen ∧ effectiveRevision host old = some since ∧
    resp = { plain with
      tree := none
      result := some (.object [("diff", (diffTrees (host.snapshot old) tree).toJson)]) }

theorem Answers.ok {host : AgentHost σ} {seen : List σ} {req : Request} {resp plain : Response}
    (h : Answers host seen req resp plain) : resp.ok = plain.ok := by
  rcases h with rfl | ⟨_, _, _, _, _, -, -, -, -, -, -, rfl⟩ <;> rfl

theorem Answers.mono {host : AgentHost σ} {seen seen' : List σ} {req : Request}
    {resp plain : Response} (h : Answers host seen req resp plain) (hs : seen ⊆ seen') :
    Answers host seen' req resp plain := by
  refine h.imp_right ?_
  rintro ⟨since, format, fingerprints, tree, old, hop, hformat, htree, hrev, hold, hversion, hresp⟩
  exact ⟨since, format, fingerprints, tree, old, hop, hformat, htree, hrev, hs hold, hversion,
    hresp⟩

namespace TreeCache

variable {env host token} {seen : List σ} {cache : TreeCache} {s : σ}

/-- Whatever a cache holds, its snapshot is the host's tree under the host's revision. -/
theorem Inv.snapshot_eq (h : Inv host seen cache)
    (determined : host.versioned.Determined (s :: seen)) :
    (cache.snapshot host s).1 = { host.snapshot s with rev := effectiveRevision host s } := by
  obtain ⟨htree, hrev⟩ := h.snapshot_fresh determined
  generalize (cache.snapshot host s).1 = tree at htree hrev
  cases tree
  obtain rfl := hrev
  simp only [UiTree.withoutRev, UiTree.mk.injEq] at htree
  simp only [UiTree.mk.injEq]
  exact ⟨htree.1, htree.2.1, htree.2.2.1, htree.2.2.2.1, trivial⟩

/-- A wait comes to the same answer over any two caches. -/
theorem Inv.waitUntilAssert_eq (hs : s ∈ seen) (determined : host.versioned.Determined seen)
    (id : String) (spec : AssertSpec) (polls : Nat) : ∀ {cache other : TreeCache},
    Inv host seen cache → Inv host seen other →
      (waitUntilAssert env host s id spec polls cache).1 =
        (waitUntilAssert env host s id spec polls other).1 := by
  have hsub : s :: seen ⊆ seen := List.cons_subset.mpr ⟨hs, fun _ h => h⟩
  have keep {cache : TreeCache} (h : Inv host seen cache) :
      Inv host seen (cache.snapshot host s).2 := (h.snapshot s).mono hsub
  have determined := determined.mono hsub
  induction polls with
  | zero =>
    intro cache other h h'
    unfold waitUntilAssert
    dsimp only
    rw [h.snapshot_eq determined, h'.snapshot_eq determined]
    split
    · rfl
    · split_ifs <;> rfl
  | succ polls ih =>
    intro cache other h h'
    unfold waitUntilAssert
    dsimp only
    rw [h.snapshot_eq determined, h'.snapshot_eq determined]
    split
    · rfl
    · split_ifs
      · rfl
      · exact ih (keep h) (keep h')

/-- A snapshot is answered as without a cache, or by a diff from a state seen. -/
theorem Inv.snapshotResponse_answers (h : Inv host seen cache)
    (determined : host.versioned.Determined (s :: seen)) (req : Request) {since : Option Nat}
    {format : Option SnapshotFormat} {fingerprints : Option Bool}
    (hop : req.op = .snapshot since format fingerprints) :
    Answers host seen req (snapshotResponse host s cache req.id since format fingerprints).1
      (snapshotResponse host s {} req.id since format fingerprints).1 := by
  have hempty : Inv host seen ({} : TreeCache) := inv_start seen
  unfold snapshotResponse
  dsimp only
  rw [h.snapshot_eq determined, hempty.snapshot_eq determined]
  by_cases hformat : format = some .compact
  · rw [if_pos hformat, if_pos hformat]
    exact .inl rfl
  rw [if_neg hformat, if_neg hformat]
  cases since with
  | none => exact .inl rfl
  | some rev =>
    dsimp only
    by_cases hcurrent : effectiveRevision host s = some rev
    · rw [if_pos hcurrent, if_pos hcurrent]
      exact .inl rfl
    rw [if_neg hcurrent, if_neg hcurrent]
    have hplain : (({} : TreeCache).snapshot host s).2.treeAt rev = none := by
      by_contra hsome
      obtain ⟨tree, hat⟩ := Option.ne_none_iff_exists'.mp hsome
      obtain ⟨old, hold, hversion, -⟩ := ((inv_start []).snapshot s).treeAt hat
      exact hcurrent (List.mem_singleton.mp hold ▸ hversion)
    have hmissed : (effectiveRevision host s).bind
        (fun _ => (({} : TreeCache).snapshot host s).2.treeAt rev) = none := by
      rw [hplain]
      cases effectiveRevision host s <;> rfl
    rw [hmissed]
    cases hat : (effectiveRevision host s).bind fun _ => (cache.snapshot host s).2.treeAt rev with
    | none => exact .inl rfl
    | some tree =>
      obtain ⟨current, -, hat⟩ := Option.bind_eq_some_iff.mp hat
      obtain ⟨old, hold, hversion, hread⟩ := (h.snapshot s).treeAt hat
      have hne : old ≠ s := fun he => hcurrent (he ▸ hversion)
      refine .inr ⟨rev, format, fingerprints, _, old, hop, hformat, rfl, hcurrent,
        (List.mem_cons.mp hold).resolve_left hne, hversion, ?_⟩
      have hdiff : diffTrees tree { host.snapshot s with rev := effectiveRevision host s } =
          diffTrees (host.snapshot old) { host.snapshot s with rev := effectiveRevision host s } :=
        diffTrees_congr hread rfl
      dsimp only
      rw [hdiff]
      rfl

/-- A request is answered as without a cache, and does the same to the host. -/
theorem Inv.request_answers (h : Inv host seen cache)
    (determined : host.versioned.Determined (s :: seen)) (polls : Nat) (req : Request)
    (nonce : Option (List UInt8)) :
    Answers host seen req (handleRequestCached env host polls s cache req token nonce).1
      (handleRequestCached env host polls s {} req token nonce).1 ∧
    (handleRequestCached env host polls s cache req token nonce).2.1 =
      (handleRequestCached env host polls s {} req token nonce).2.1 := by
  have hempty : Inv host seen ({} : TreeCache) := inv_start seen
  have htree : (cache.snapshot host s).1 = (({} : TreeCache).snapshot host s).1 := by
    rw [h.snapshot_eq determined, hempty.snapshot_eq determined]
  unfold handleRequestCached
  split
  next => exact ⟨.inl rfl, rfl⟩
  next =>
    split <;> dsimp only
    next => exact ⟨.inl rfl, rfl⟩
    next => exact ⟨.inl rfl, rfl⟩
    next => exact ⟨.inl rfl, rfl⟩
    next =>
      have grown {cache : TreeCache} (h : Inv host seen cache) : Inv host (s :: seen) cache :=
        h.mono (List.subset_cons_self s seen)
      exact ⟨.inl ((grown h).waitUntilAssert_eq List.mem_cons_self determined _ _ _
        (grown hempty)), rfl⟩
    next => exact ⟨.inl rfl, rfl⟩
    next hop => exact ⟨h.snapshotResponse_answers determined req hop, rfl⟩
    next => split <;> exact ⟨.inl rfl, rfl⟩
    next =>
      rw [htree]
      split <;> exact ⟨.inl rfl, rfl⟩
    next => exact ⟨.inl rfl, rfl⟩
    next => split <;> exact ⟨.inl rfl, rfl⟩
    next => split <;> exact ⟨.inl rfl, rfl⟩
    next => exact ⟨.inl rfl, rfl⟩
    next =>
      split
      next => exact ⟨.inl rfl, rfl⟩
      next =>
        rw [htree]
        split <;> exact ⟨.inl rfl, rfl⟩

end TreeCache

/-- The phase with nothing in the cache. -/
def HostPhase.forget : HostPhase → HostPhase
  | .reading _ => .reading {}
  | .replying _ req resp => .replying {} req resp
  | .closed => .closed

def ConnThread.forget (thread : ConnThread HostPhase) : ConnThread HostPhase :=
  { thread with phase := thread.phase.forget }

namespace HostServer

def forget (s : HostServer σ) : HostServer σ :=
  { s with threads := s.threads.map ConnThread.forget }

/-- A step of a server whose threads keep no cache from one request to the next. -/
def uncachedStep (s : HostServer σ) (e : HostEvent ι) : HostServer σ :=
  (s.step env parse token limits host react e).forget

/-- The states of the app in which connection `i` takes a round, from `s` on. -/
def metBy (i : Nat) (s : HostServer σ) : List (HostEvent ι) → List σ
  | [] => []
  | e :: events =>
    let rest := metBy i (s.uncachedStep env parse token limits host react e) events
    match e with
    | .line j _ => if j = i then s.app :: rest else rest
    | _ => rest

end HostServer

/-- A phase beside the phase of the same thread without its cache. -/
inductive HostPhase.Alike (seen : List σ) : HostPhase → HostPhase → Prop where
  | reading {cache : TreeCache} : TreeCache.Inv host seen cache →
    Alike seen (.reading cache) (.reading {})
  | replying {cache : TreeCache} {req : Request} {resp plain : Response} :
    TreeCache.Inv host seen cache → Answers host seen req resp plain →
    Alike seen (.replying cache req resp) (.replying {} req plain)
  | closed : Alike seen .closed .closed

/-- A thread beside the same thread without its cache. -/
structure ConnThread.Alike (seen : List σ) (thread plain : ConnThread HostPhase) : Prop where
  nonce : thread.nonce = plain.nonce
  lines : thread.lines = plain.lines
  phase : HostPhase.Alike host seen thread.phase plain.phase

/-- A server beside the server without caches: the connections have met the states `met`. -/
structure HostServer.Alike (met : Nat → List σ) (s t : HostServer σ) : Prop where
  app : s.app = t.app
  shutdown : s.shutdown = t.shutdown
  length : s.threads.length = t.threads.length
  threads : ∀ i thread plain, s.threads[i]? = some thread → t.threads[i]? = some plain →
    ConnThread.Alike host (met i) thread plain

section Alike

variable {env parse token limits host react} {seen seen' : List σ} {phase plain : HostPhase}
  {thread other : ConnThread HostPhase}

theorem HostPhase.Alike.mono (h : HostPhase.Alike host seen phase plain) (hs : seen ⊆ seen') :
    HostPhase.Alike host seen' phase plain := by
  cases h with
  | reading hinv => exact .reading (hinv.mono hs)
  | replying hinv hanswers => exact .replying (hinv.mono hs) (hanswers.mono hs)
  | closed => exact .closed

theorem HostPhase.Alike.forget (h : HostPhase.Alike host seen phase plain) :
    plain.forget = plain := by
  cases h <;> rfl

theorem ConnThread.Alike.mono (h : ConnThread.Alike host seen thread other) (hs : seen ⊆ seen') :
    ConnThread.Alike host seen' thread other :=
  ⟨h.nonce, h.lines, h.phase.mono hs⟩

theorem ConnThread.Alike.forget (h : ConnThread.Alike host seen thread other) :
    other.forget = other := by
  unfold ConnThread.forget
  rw [h.phase.forget]

/-- Both threads take the same round. -/
theorem ConnThread.Alike.next (h : ConnThread.Alike host seen thread other) :
    ConnThread.Alike host seen (thread.next env parse token .closed).1
      (other.next env parse token .closed).1 ∧
    (thread.next env parse token .closed).2 = (other.next env parse token .closed).2 := by
  unfold ConnThread.next
  rw [← h.nonce, ← h.lines]
  cases thread.lines with
  | nil => exact ⟨⟨rfl, rfl, .closed⟩, rfl⟩
  | cons line lines =>
    dsimp only
    cases judgeLine env parse token thread.nonce line with
    | skip => exact ⟨⟨rfl, rfl, h.phase⟩, rfl⟩
    | refuse resp => exact ⟨⟨rfl, rfl, .closed⟩, rfl⟩
    | allow req => exact ⟨⟨rfl, rfl, h.phase⟩, rfl⟩

namespace HostServer

variable {met met' : Nat → List σ} {s t : HostServer σ}

theorem Alike.mono (h : Alike host met s t) (hmet : ∀ i, met i ⊆ met' i) : Alike host met' s t :=
  ⟨h.app, h.shutdown, h.length, fun i thread plain hi hi' => (h.threads i thread plain hi hi').mono
    (hmet i)⟩

/-- Both servers have a thread of that number, or neither has. -/
theorem Alike.thread_cases (h : Alike host met s t) (i : Nat) :
    (s.threads[i]? = none ∧ t.threads[i]? = none) ∨
      ∃ thread plain, s.threads[i]? = some thread ∧ t.threads[i]? = some plain ∧
        ConnThread.Alike host (met i) thread plain := by
  have hlength := h.length
  by_cases hi : i < s.threads.length
  · exact .inr ⟨_, _, List.getElem?_eq_getElem hi, List.getElem?_eq_getElem (hlength ▸ hi),
      h.threads i _ _ (List.getElem?_eq_getElem hi) (List.getElem?_eq_getElem (hlength ▸ hi))⟩
  · exact .inl ⟨List.getElem?_eq_none (by omega), List.getElem?_eq_none (by omega)⟩

theorem Alike.forget (h : Alike host met s t) : t.forget = t := by
  have hthreads : t.threads.map ConnThread.forget = t.threads := by
    refine List.ext_getElem? fun i => ?_
    rw [List.getElem?_map]
    rcases h.thread_cases i with ⟨-, hi⟩ | ⟨thread, plain, -, hi, halike⟩
    · rw [hi]
      rfl
    · rw [hi, Option.map_some, halike.forget]
  unfold HostServer.forget
  rw [hthreads]

/-- One thread is put in the place of another in both servers. -/
theorem Alike.set (h : Alike host met s t) (i : Nat) (app : σ) (shutdown : Bool)
    (hthread : ConnThread.Alike host (met i) thread other.forget) :
    Alike host met ⟨app, s.threads.set i thread, shutdown⟩
      (HostServer.forget ⟨app, t.threads.set i other, shutdown⟩) := by
  refine ⟨rfl, rfl, by simp [HostServer.forget, h.length], fun j thread' plain hj hj' => ?_⟩
  rw [← h.forget] at h
  simp only [HostServer.forget, List.map_set] at hj hj' h
  rw [List.getElem?_set] at hj hj'
  by_cases hij : i = j
  · subst hij
    rw [if_pos rfl] at hj hj'
    split_ifs at hj hj'
    obtain rfl := Option.some.inj hj
    obtain rfl := Option.some.inj hj'
    exact hthread
  · rw [if_neg hij] at hj hj'
    exact h.threads j thread' plain hj hj'

/-- As many threads are still at work in one server as in the other. -/
theorem Alike.countP_eq (h : Alike host met s t) (p : ConnThread HostPhase → Bool)
    (hp : ∀ seen thread plain, ConnThread.Alike host seen thread plain → p thread = p plain) :
    s.threads.countP p = t.threads.countP p := by
  have hmap : s.threads.map p = t.threads.map p := by
    refine List.ext_getElem? fun i => ?_
    rw [List.getElem?_map, List.getElem?_map]
    rcases h.thread_cases i with ⟨hi, hi'⟩ | ⟨thread, plain, hi, hi', halike⟩
    · rw [hi, hi']
    · rw [hi, hi', Option.map_some, Option.map_some, hp _ _ _ halike]
  have hcount : ∀ threads : List (ConnThread HostPhase),
      threads.countP p = (threads.map p).countP id := fun threads => by rw [List.countP_map]; rfl
  rw [hcount, hcount, hmap]

theorem Alike.accept (h : Alike host met s t) (randomNonce : Option (List UInt8))
    (input : Incoming) : Alike host met (s.accept token limits randomNonce input)
      (t.accept token limits randomNonce input).forget := by
  unfold HostServer.accept
  dsimp only
  rw [h.countP_eq]
  · split_ifs
    · rw [h.forget]
      exact h
    · have hbegin : ConnThread.Alike host (met s.threads.length)
          (.begin token limits randomNonce input (.reading {}) .closed)
          (.begin token limits randomNonce input (.reading {}) .closed) := by
        unfold ConnThread.begin
        cases beginSession token randomNonce with
        | none => exact ⟨rfl, rfl, .closed⟩
        | some nonce => exact ⟨rfl, rfl, .reading (TreeCache.inv_start _)⟩
      generalize ConnThread.begin token limits randomNonce input (HostPhase.reading {})
        HostPhase.closed = begun at hbegin ⊢
      have hthreads : (t.threads ++ [begun]).map ConnThread.forget = t.threads ++ [begun] := by
        have hthreads : t.threads.map ConnThread.forget = t.threads :=
          congrArg HostServer.threads h.forget
        rw [List.map_append, hthreads, List.map_singleton, hbegin.forget]
      unfold HostServer.forget
      rw [hthreads]
      refine ⟨h.app, h.shutdown, by simp [h.length], fun i thread plain hi hi' => ?_⟩
      dsimp only at hi hi'
      rw [List.getElem?_append] at hi hi'
      have hlength := h.length
      by_cases hlt : i < s.threads.length
      · rw [if_pos hlt] at hi
        rw [if_pos (hlength ▸ hlt)] at hi'
        exact h.threads i thread plain hi hi'
      · rw [if_neg hlt] at hi
        rw [if_neg (hlength ▸ hlt), ← hlength] at hi'
        rw [List.getElem?_singleton] at hi hi'
        split_ifs at hi hi' with hzero
        obtain rfl := Option.some.inj hi
        obtain rfl := Option.some.inj hi'
        have hi : i = s.threads.length := by omega
        exact hi ▸ hbegin
  · intro seen thread plain halike
    have hphase := halike.phase
    generalize thread.phase = phase, plain.phase = phase' at hphase
    cases hphase <;> rfl

theorem Alike.line (h : Alike host met s t) (i polls : Nat) (hmet : s.app ∈ met i)
    (determined : host.versioned.Determined (met i)) :
    Alike host met (s.line env parse token host i polls)
      (t.line env parse token host i polls).forget := by
  unfold HostServer.line
  rcases h.thread_cases i with ⟨hi, hi'⟩ | ⟨thread, plain, hi, hi', halike⟩
  · rw [hi, hi']
    dsimp only
    rw [h.forget]
    exact h
  · rw [hi, hi']
    dsimp only
    have hnext := @ConnThread.Alike.next _ env parse token host (met i) thread plain halike
    have hphase := halike.phase
    generalize hthread : thread.phase = phase, hplain : plain.phase = phase' at hphase
    cases hphase with
    | replying hinv hanswers =>
      dsimp only
      rw [h.forget]
      exact h
    | closed =>
      dsimp only
      rw [h.forget]
      exact h
    | @reading cache hinv =>
      dsimp only
      rw [← hnext.2]
      cases (thread.next env parse token HostPhase.closed).2 with
      | none =>
        dsimp only
        rw [h.app, h.shutdown]
        exact h.set i t.app t.shutdown (hnext.1.forget.symm ▸ hnext.1)
      | some req =>
        obtain ⟨⟨hnonce, hlines, -⟩, -⟩ := hnext
        generalize (thread.next env parse token HostPhase.closed).1 = round at hnonce hlines ⊢
        generalize (plain.next env parse token HostPhase.closed).1 = round' at hnonce hlines ⊢
        have hsub : s.app :: met i ⊆ met i := List.cons_subset.mpr ⟨hmet, fun _ h => h⟩
        obtain ⟨hanswers, hstate⟩ := @TreeCache.Inv.request_answers _ env token host _ _ _ hinv
          (determined.mono hsub) polls req round.nonce
        have hkept := (@TreeCache.Inv.request _ host env token round.nonce _ _ hinv
          ⟨s.app, polls, req⟩).mono hsub
        dsimp only at hkept ⊢
        rw [← h.app, ← h.shutdown, ← hnonce, ← hstate]
        exact h.set i _ s.shutdown ⟨rfl, hlines, .replying hkept hanswers⟩

theorem Alike.settle (h : Alike host met s t) (i : Nat) :
    Alike host met (s.settle i) (t.settle i).forget := by
  unfold HostServer.settle
  rcases h.thread_cases i with ⟨hi, hi'⟩ | ⟨thread, plain, hi, hi', halike⟩
  · rw [hi, hi']
    dsimp only
    rw [h.forget]
    exact h
  · rw [hi, hi']
    obtain ⟨nonce, lines, phase⟩ := thread
    obtain ⟨nonce', lines', phase'⟩ := plain
    obtain ⟨hnonce, hlines, hphase⟩ := halike
    dsimp only at hnonce hlines hphase ⊢
    cases hphase with
    | reading hinv =>
      dsimp only
      rw [h.forget]
      exact h
    | closed =>
      dsimp only
      rw [h.forget]
      exact h
    | @replying cache req resp plain hinv hanswers =>
      have hends : endsSession req resp = endsSession req plain := by
        unfold endsSession
        rw [hanswers.ok]
      dsimp only
      rw [hends, h.app, h.shutdown]
      split_ifs
      · exact h.set i t.app true ⟨hnonce, rfl, .closed⟩
      · exact h.set i t.app t.shutdown ⟨hnonce, hlines, .reading hinv⟩

theorem Alike.step (h : Alike host met s t) (e : HostEvent ι)
    (hmet : ∀ i polls, e = .line i polls → s.app ∈ met i)
    (determined : ∀ i, host.versioned.Determined (met i)) :
    Alike host met (s.step env parse token limits host react e)
      (t.uncachedStep env parse token limits host react e) := by
  cases e with
  | accept randomNonce input => exact h.accept randomNonce input
  | line i polls => exact h.line i polls (hmet i polls rfl) (determined i)
  | settle i => exact h.settle i
  | react input =>
    have hthreads : t.threads.map ConnThread.forget = t.threads :=
      congrArg HostServer.threads h.forget
    unfold HostServer.uncachedStep HostServer.forget HostServer.step
    dsimp only
    rw [hthreads, h.app]
    exact ⟨rfl, h.shutdown, h.length, h.threads⟩

theorem metBy_append (i : Nat) (more events : List (HostEvent ι)) : ∀ s : HostServer σ,
    metBy env parse token limits host react i s (events ++ more) =
      metBy env parse token limits host react i s events ++
        metBy env parse token limits host react i
          (events.foldl (uncachedStep env parse token limits host react) s) more := by
  induction events with
  | nil => exact fun _ => rfl
  | cons e events ih =>
    intro s
    have hrest := ih (s.uncachedStep env parse token limits host react e)
    rw [List.cons_append]
    cases e with
    | line j polls =>
      simp only [metBy, hrest]
      split_ifs <;> rfl
    | accept randomNonce input => exact hrest
    | settle j => exact hrest
    | react input => exact hrest

theorem metBy_subset (i : Nat) {pre events : List (HostEvent ι)} (hpre : pre <+: events)
    (s : HostServer σ) : metBy env parse token limits host react i s pre ⊆
      metBy env parse token limits host react i s events := by
  obtain ⟨more, rfl⟩ := hpre
  rw [metBy_append]
  exact List.subset_append_left _ _

end HostServer

end Alike

namespace HostServer

/-- The clients of a server cannot tell that it answers from caches: step by step it takes the same
states as without them, shutdown and all, and writes the same replies but for a diff from a state
that the same connection has met. -/
def CachesTransparent (app : σ) (events : List (HostEvent ι)) : Prop :=
  ∀ pre, pre <+: events →
    Alike host (fun i => metBy env parse token limits host react i { app } pre)
      (pre.foldl (step env parse token limits host react) { app })
      (pre.foldl (uncachedStep env parse token limits host react) { app })

variable {env parse token limits host react} in
/-- The caches are transparent if no connection ever meets two trees under one revision. -/
theorem cachesTransparent_of_determined {app : σ} {events : List (HostEvent ι)}
    (determined : ∀ i, host.versioned.Determined
      (metBy env parse token limits host react i { app } events)) :
    CachesTransparent env parse token limits host react app events := by
  intro pre hpre
  induction pre using List.reverseRecOn with
  | nil => exact ⟨rfl, rfl, rfl, fun i thread plain hi => by simp at hi⟩
  | append_singleton pre e ih =>
    have h := ih ((List.prefix_append pre [e]).trans hpre)
    rw [List.foldl_append, List.foldl_append]
    refine (h.mono fun i => metBy_subset i (List.prefix_append pre [e]) _).step e ?_ fun i =>
      (determined i).mono (metBy_subset i hpre _)
    rintro i polls rfl
    rw [metBy_append, h.app]
    simp [metBy]

end HostServer

end Host

end GpuiAgent
