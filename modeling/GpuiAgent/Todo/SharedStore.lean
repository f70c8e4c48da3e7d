import GpuiAgent.Server.Uncached
import GpuiAgent.Todo.Atomic

namespace GpuiAgent

open Framework

namespace TodoStore

section Serve

variable (env : Env) (parse : List UInt8 → Except String Request) (token : Option String)
  (limits : ServerLimits)

/-- `todo-headless serve` without caches. Only the connections change the store. -/
def served (events : List (HostEvent Empty)) : HostServer TodoStore :=
  events.foldl (HostServer.uncachedStep env parse token limits (agentHost env) fun s _ => s)
    { app := new .headless }

/-- No request that is served moves the page without a new revision. -/
def StaysOnPage (events : List (HostEvent Empty)) : Prop :=
  ∀ pre i polls thread cache req, pre ++ [.line i polls] <+: events →
    (served env parse token limits pre).threads[i]? = some thread →
    thread.phase = .reading cache → (thread.next env parse token .closed).2 = some req →
      (served env parse token limits pre).app.movesPage req.op = false

variable {env parse token limits}

/-- A step leaves the store, or a thread has it take the op of a request. -/
theorem served_concat (pre : List (HostEvent Empty)) (e : HostEvent Empty) :
    (served env parse token limits (pre ++ [e])).app = (served env parse token limits pre).app ∨
      ∃ i polls thread cache req, e = .line i polls ∧
        (served env parse token limits pre).threads[i]? = some thread ∧
        thread.phase = .reading cache ∧ (thread.next env parse token .closed).2 = some req ∧
        (served env parse token limits (pre ++ [e])).app =
          (served env parse token limits pre).app.call env (.agent req.op) := by
  have hserved : (served env parse token limits (pre ++ [e])).app =
      ((served env parse token limits pre).step env parse token limits (agentHost env)
        (fun s _ => s) e).app := by
    unfold served
    rw [List.foldl_append]
    rfl
  rw [hserved]
  generalize served env parse token limits pre = s
  cases e with
  | accept randomNonce input =>
    left
    simp only [HostServer.step, HostServer.accept]
    split_ifs <;> rfl
  | settle i =>
    left
    simp only [HostServer.step, HostServer.settle]
    split
    · rfl
    · split
      · split_ifs <;> rfl
      · rfl
  | react input => exact input.elim
  | line i polls =>
    rw [HostServer.step, HostServer.line]
    cases hi : s.threads[i]? with
    | none => exact .inl rfl
    | some thread =>
      dsimp only
      cases hphase : thread.phase with
      | replying cache req resp => exact .inl rfl
      | closed => exact .inl rfl
      | reading cache =>
        dsimp only
        cases hreq : (thread.next env parse token HostPhase.closed).2 with
        | none => exact .inl rfl
        | some req =>
          dsimp only
          rcases handleRequestCached_state env (agentHost env) polls s.app cache req token
            (thread.next env parse token HostPhase.closed).1.nonce with h | ⟨-, -, -, h⟩
          · exact .inl h
          · exact .inr ⟨i, polls, thread, cache, req, rfl, hi, hphase, hreq, h⟩

theorem served_rev_le (events : List (HostEvent Empty)) :
    (served env parse token limits events).app.rev ≤ events.length := by
  induction events using List.reverseRecOn with
  | nil => exact le_rfl
  | append_singleton pre e ih =>
    rw [List.length_append, List.length_singleton]
    rcases @served_concat env parse token limits pre e with h | ⟨i, polls, thread, cache, req, -, -, -, -, h⟩
    · rw [h]
      omega
    · rw [h]
      exact (call_rev_le env _ _).trans (Nat.succ_le_succ ih)

/-- Over fewer steps than there are revisions, a later state counts on from an earlier one. -/
theorem served_counted {events : List (HostEvent Empty)} (hlen : events.length < 2 ^ 64)
    (hpage : StaysOnPage env parse token limits events) (pre suf : List (HostEvent Empty))
    (hpre : pre ++ suf <+: events) :
    Counted (served env parse token limits pre).app
      (served env parse token limits (pre ++ suf)).app := by
  refine prefix_rel (R := Counted) (f := fun pre => (served env parse token limits pre).app)
    (fun s => ⟨le_rfl, fun _ => rfl⟩) ?_ ?_ pre suf hpre
  · rintro s t u ⟨hst, hv⟩ ⟨htu, hw⟩
    exact ⟨hst.trans htu, fun he => (hv (by omega)).trans (hw (by omega))⟩
  · intro pre e hpre
    rcases @served_concat env parse token limits pre e with
      h | ⟨i, polls, thread, cache, req, rfl, hi, hphase, hreq, h⟩
    · rw [h]
      exact ⟨le_rfl, fun _ => rfl⟩
    · have hrev := @served_rev_le env parse token limits pre
      have hle := hpre.length_le
      rw [List.length_append, List.length_singleton] at hle
      rw [h]
      refine (call_counted_iff env _ _ (by omega)).mpr ?_
      rintro op he
      obtain rfl := StoreCall.agent.inj he
      exact hpage pre i polls thread cache req hpre hi hphase hreq

/-- A connection meets states of the run. -/
theorem mem_metBy {i : Nat} {s : TodoStore} {events : List (HostEvent Empty)}
    (h : s ∈ HostServer.metBy env parse token limits (agentHost env) (fun s _ => s) i
      { app := new .headless } events) :
    ∃ pre, pre <+: events ∧ s = (served env parse token limits pre).app := by
  induction events using List.reverseRecOn with
  | nil => exact absurd h List.not_mem_nil
  | append_singleton pre e ih =>
    rw [HostServer.metBy_append, List.mem_append] at h
    rcases h with h | h
    · obtain ⟨front, hfront, rfl⟩ := ih h
      exact ⟨front, hfront.trans (List.prefix_append _ _), rfl⟩
    · refine ⟨pre, List.prefix_append _ _, ?_⟩
      cases e with
      | line j polls =>
        simp only [HostServer.metBy] at h
        split_ifs at h with hij
        · exact List.mem_singleton.mp h
        · cases h
      | accept randomNonce input => cases h
      | settle j => cases h
      | react input => exact input.elim

end Serve

/-- The clients of `todo-headless serve` never notice its caches, as long as it takes fewer steps
than there are revisions and no `nav.go` goes to the page not shown. -/
theorem serve_cachesTransparent (env : Env) (parse : List UInt8 → Except String Request)
    (token : Option String) (limits : ServerLimits) (events : List (HostEvent Empty))
    (hlen : events.length < 2 ^ 64) (hpage : StaysOnPage env parse token limits events) :
    HostServer.CachesTransparent env parse token limits (agentHost env) (fun s _ => s)
      (new .headless) events := by
  refine HostServer.cachesTransparent_of_determined ?_
  intro i s hs t ht rev hsrev htrev
  have hsrev : s.rev = rev := Option.some.inj hsrev
  have htrev : t.rev = rev := Option.some.inj htrev
  obtain ⟨pre, hpre, rfl⟩ := mem_metBy hs
  obtain ⟨pre', hpre', rfl⟩ := mem_metBy ht
  rcases List.prefix_or_prefix_of_prefix hpre hpre' with ⟨suf, rfl⟩ | ⟨suf, rfl⟩
  · exact (served_counted hlen hpage pre suf hpre').2 (hsrev.trans htrev.symm)
  · exact ((served_counted hlen hpage pre' suf hpre).2 (htrev.trans hsrev.symm)).symm

/-- Reads `+` as a letter typed and any other line as a `snapshot`. -/
def parsePlus (buf : List UInt8) : Except String Request :=
  if buf = [43] then .ok (.new "1" (.type "todo-input" "m" .semantic none))
  else .ok (.new "2" (.snapshot (some 0) none none))

/-- One connection takes a snapshot before and after another types. -/
def typedBetweenSnapshots : List (HostEvent Empty) :=
  [.accept none { bytes := [63, NEWLINE, 63, NEWLINE] }, .accept none { bytes := [43, NEWLINE] },
    .line 0 0, .settle 0, .line 1 0, .settle 1, .line 0 0, .settle 0]

theorem serve_cachesTransparent_typed :
    HostServer.CachesTransparent .bare parsePlus none ⟨64, 2⟩ (agentHost .bare) (fun s _ => s)
      (new .headless) typedBetweenSnapshots := by
  refine serve_cachesTransparent .bare parsePlus none ⟨64, 2⟩ typedBetweenSnapshots (by decide) ?_
  intro pre i polls thread cache req _ _ _ hreq
  unfold ConnThread.next at hreq
  cases hlines : thread.lines with
  | nil => simp [hlines] at hreq
  | cons line lines =>
    cases hjudge : judgeLine .bare parsePlus none thread.nonce line with
    | skip => simp [hlines, hjudge] at hreq
    | refuse resp => simp [hlines, hjudge] at hreq
    | allow r =>
      obtain ⟨buf, -, -, hparse, -⟩ := judgeLine_eq_allow_iff.mp hjudge
      obtain rfl : r = req := by simpa [hlines, hjudge] using hreq
      unfold parsePlus at hparse
      split_ifs at hparse <;> obtain rfl := Except.ok.inj hparse <;> rfl

end TodoStore

end GpuiAgent
