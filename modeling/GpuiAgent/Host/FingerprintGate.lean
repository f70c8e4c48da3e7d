import GpuiAgent.Host.Dispatch

namespace GpuiAgent

open Framework

/-- A reply that refuses an op as stale or gone. -/
def Response.isStaleRefusal (resp : Response) : Bool :=
  !resp.ok && resp.error.any isStaleDispatchError

/-- The same host, writing down every op it is given. -/
def AgentHost.logged {σ : Type} (host : AgentHost σ) : AgentHost (σ × List Op) where
  hello := fun s => host.hello s.1
  snapshot := fun s => host.snapshot s.1
  dispatch := fun s op =>
    let (result, state) := host.dispatch s.1 op
    (result, state, s.2 ++ [op])
  screenshot := fun s => host.screenshot s.1
  keybindings := fun s => host.keybindings s.1
  isAppFocused := fun s => host.isAppFocused s.1
  revision := fun s => host.revision s.1
  eventRing := fun s => host.eventRing s.1

section Gate

variable {σ : Type} {env : Env} {req : Request} {token : Option String}
  {nonce : Option (List UInt8)} {target : String} {fp : UInt64}

/-- A gated op in `handle_request`: refused on the tree of the cache, or handed to the host. -/
theorem handleRequestCached_of_gate (host : AgentHost σ) (polls : Nat) (s : σ) (cache : TreeCache)
    (authorized : authorizeRequest env req token nonce = .ok ())
    (gate : req.op.fingerprintGate = some (target, fp)) :
    handleRequestCached env host polls s cache req token nonce =
      match fingerprintRefusal (cache.snapshot host s).1 target fp with
      | some error => (.err req.id error, s, (cache.snapshot host s).2)
      | none => ((dispatchResponse host s req.id req.op).1,
          (dispatchResponse host s req.id req.op).2, (cache.snapshot host s).2) := by
  obtain ⟨v, id, tok, auth, op⟩ := req
  unfold handleRequestCached
  rw [authorized]
  cases op <;> simp only [Op.fingerprintGate, reduceCtorEq] at gate <;>
    cases hrefusal : fingerprintRefusal (cache.snapshot host s).1 target fp <;>
    simp only [Op.fingerprintGate, gate, hrefusal]

/-- The gate lets an op pass exactly when the tree gives its target the expected fingerprint. -/
theorem fingerprintRefusal_eq_none (tree : UiTree) :
    fingerprintRefusal tree target fp = none ↔ tree.fingerprintOf target = some fp := by
  unfold fingerprintRefusal
  cases tree.fingerprintOf target with
  | none => simp
  | some actual => by_cases h : actual = fp <;> simp [h]

theorem isStaleDispatchError_of_refusal {tree : UiTree} {error : String}
    (h : fingerprintRefusal tree target fp = some error) : isStaleDispatchError error = true := by
  have prefixed : ∀ pre rest : String, startsWith (pre ++ rest) pre = true := startsWith_append
  unfold fingerprintRefusal at h
  split at h
  · obtain rfl := Option.some.inj h
    simp only [isStaleDispatchError, String.append_assoc, toString, prefixed, Bool.or_true]
  · split_ifs at h
    obtain rfl := Option.some.inj h
    simp only [isStaleDispatchError, String.append_assoc, toString, prefixed, Bool.true_or]

theorem TreeCache.snapshot_logged (host : AgentHost σ) (s : σ) (log : List Op) (cache : TreeCache) :
    cache.snapshot host.logged (s, log) = cache.snapshot host s := rfl

end Gate

/-- What the gate promises for one request on the direct path, on the log of the ops the host is
given: the target is as expected in the host's tree, or the request is refused and the host is left
alone. -/
def DirectGate {σ : Type} (env : Env) (host : AgentHost σ) (polls : Nat) (s : σ) (cache : TreeCache)
    (req : Request) (token : Option String) (nonce : Option (List UInt8)) (target : String)
    (fp : UInt64) : Prop :=
  let out := handleRequestCached env host.logged polls (s, []) cache req token nonce
  (host.snapshot s).fingerprintOf target = some fp ∨
    out.1.isStaleRefusal ∧ out.2.1 = (s, [])

theorem directGate_iff {σ : Type} {env : Env} (host : AgentHost σ) (polls : Nat) (s : σ)
    (cache : TreeCache) {req : Request} {token : Option String} {nonce : Option (List UInt8)}
    {target : String} {fp : UInt64} (authorized : authorizeRequest env req token nonce = .ok ())
    (gate : req.op.fingerprintGate = some (target, fp)) :
    DirectGate env host polls s cache req token nonce target fp ↔
      ((cache.snapshot host s).1.fingerprintOf target = some fp →
        (host.snapshot s).fingerprintOf target = some fp) := by
  have fresh : fingerprintRefusal (cache.snapshot host s).1 target fp = none ↔
      (cache.snapshot host s).1.fingerprintOf target = some fp := fingerprintRefusal_eq_none _
  unfold DirectGate
  rw [handleRequestCached_of_gate _ _ _ _ authorized gate, TreeCache.snapshot_logged]
  cases refusal : fingerprintRefusal (cache.snapshot host s).1 target fp with
  | some error =>
    have stale := isStaleDispatchError_of_refusal refusal
    have other : (cache.snapshot host s).1.fingerprintOf target ≠ some fp := fun h => by
      rw [fresh.mpr h] at refusal
      cases refusal
    simp [Response.isStaleRefusal, Response.err, stale, other]
  | none =>
    have passed := fresh.mp refusal
    simp only [dispatchResponse, AgentHost.logged, List.nil_append, Prod.mk.injEq, passed,
      forall_const, List.cons_ne_nil, and_false, or_false]

end GpuiAgent
