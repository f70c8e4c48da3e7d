import GpuiAgent.Cli.McpAct
import GpuiAgent.Policy.Admitted

namespace GpuiAgent

open Framework Tool

namespace Mcp

/-- An answer of `act` that reports no dispatch. -/
def Idle (value : Json) : Prop :=
  (∃ reason candidates rev, value = abstained reason candidates rev) ∨
    (∃ rev, value = finished rev) ∨ value = givenUp

theorem idle_abstained (reason : String) (candidates : Json) (rev : Option Nat) :
    Idle (abstained reason candidates rev) := .inl ⟨reason, candidates, rev, rfl⟩

theorem idle_finished (rev : Option Nat) : Idle (finished rev) := .inr (.inl ⟨rev, rfl⟩)

theorem idle_givenUp : Idle givenUp := .inr (.inr rfl)

/-- What a pass of `act` saw and chose before it sent an op. -/
structure Aim where
  snap : Response
  listing : Response
  obs : Observed
  decision : PolicyDecision
  action : OfferedAction
  text : Option String

section Meaning

variable {σ : Type*} (tools : InstinctTools) (args : Json) (clause : String)

/-- Two calls, and what is observed in their replies. -/
structure Seen (snap listing : Exchange σ) (snapReply listingReply : Response) (obs : Observed) :
    Prop where
  snapOp : snap.op = .snapshot none none none
  listingOp : listing.op = .keybindings
  snapAccepted : accepted snap.result = .ok snapReply
  listingAccepted : accepted listing.result = .ok listingReply
  observed : observed tools args snapReply listingReply = .ok obs

/-- The op is that of an offered harmless action, chosen on the replies of the two calls. It never
confirms, and on a node it is gated by the fingerprint which the node has in the snapshot. -/
structure Aim.Behind (aim : Aim) (snap listing : Exchange σ) (op : Op) : Prop where
  seen : Seen tools args snap listing aim.snap aim.listing aim.obs
  chosen : decide tools aim.obs clause = .ok (.choice aim.decision)
  offered : aim.obs.space.get aim.decision.actionId = some aim.action
  kind : aim.action.kind = aim.decision.kind
  harmless : aim.action.dangerous = false
  resolved : textPayload aim.obs clause aim.decision aim.action = .ok aim.text
  sent : ∃ delivery, parseDelivery args = .ok delivery ∧
    actOp tools args clause delivery aim.obs aim.decision aim.action aim.text = .ok op
  confirms : op.confirms = false
  gated : aim.decision.kind.nodeBound = true → ∃ tree row, aim.snap.tree = some tree ∧
    row ∈ viableNodes none true tree.nodes ∧
    op.fingerprintGate = some (row.2.id, UiNode.fingerprint row.2 (row.1.map (·.id)))

/-- What the answer to an op means for the calls after it and for the answer of `act`: a stale
refusal leaves them open, any other one ends the run, and so does an accepted op, after one look at
what it did. -/
inductive Aim.Settled (aim : Aim) (sent : Exchange σ) :
    List (Exchange σ) → Except String Json → Prop
  | stale {err : String} {rest : List (Exchange σ)} {outcome : Except String Json}
      (hresult : accepted sent.result = .error err) (hstale : isStaleDispatchError err = true) :
      Settled aim sent rest outcome
  | refused {err : String} (hresult : accepted sent.result = .error err)
      (hstale : isStaleDispatchError err = false) : Settled aim sent [] (.error err)
  | carried {resp : Response} {post : Exchange σ} (hresult : accepted sent.result = .ok resp)
      (hop : post.op = .snapshot aim.obs.rev none none) :
      Settled aim sent [post]
        (.ok (receipt aim.obs aim.decision aim.text (accepted post.result)))

/-- Each dispatch among the calls has its aim behind it, and is settled. -/
def Aimed (calls : List (Exchange σ)) (outcome : Except String Json) : Prop :=
  ∀ earlier sent rest, calls = earlier ++ sent :: rest → sent.op.reads = false →
    ∃ (aim : Aim) (seen : List (Exchange σ)) (snap listing : Exchange σ),
      earlier = seen ++ [snap, listing] ∧ aim.Behind tools args clause snap listing sent.op ∧
      aim.Settled sent rest outcome

/-- The calls and the answer of a run of at most `n` passes. -/
structure Guarded (n : Nat) (calls : List (Exchange σ)) (outcome : Except String Json) : Prop where
  few : calls.countP (fun e => !e.op.reads) ≤ n
  aimed : Aimed tools args clause calls outcome
  idle : ∀ value, outcome = .ok value → Idle value ∨
    ∃ sent ∈ calls, sent.op.reads = false ∧ ∃ resp, accepted sent.result = .ok resp

end Meaning

section Guards

variable {σ : Type*} {tools : InstinctTools} {args : Json} {clause : String} {n : Nat}
  {calls : List (Exchange σ)} {outcome : Except String Json} {snap listing sent post : Exchange σ}
  {aim : Aim}

theorem Seen.reads {snapReply listingReply : Response} {obs : Observed}
    (h : Seen tools args snap listing snapReply listingReply obs) :
    snap.op.reads = true ∧ listing.op.reads = true := by
  rw [h.snapOp, h.listingOp]
  exact ⟨rfl, rfl⟩

theorem Aimed.of_reads (hreads : ∀ e ∈ calls, e.op.reads = true) :
    Aimed tools args clause calls outcome := by
  rintro earlier sent rest rfl hsent
  have hread := hreads sent (by simp)
  rw [hsent] at hread
  cases hread

/-- A dispatch in a pass and later calls is the third call, or one of the later ones. -/
theorem Aimed.cons (haim : aim.Behind tools args clause snap listing sent.op)
    (hsettled : aim.Settled sent calls outcome) (h : Aimed tools args clause calls outcome) :
    Aimed tools args clause (snap :: listing :: sent :: calls) outcome := by
  obtain ⟨hsnap, hlisting⟩ := haim.seen.reads
  intro earlier e rest hsplit he
  rcases earlier with _ | ⟨x, _ | ⟨y, _ | ⟨z, earlier⟩⟩⟩
  · simp only [List.nil_append, List.cons.injEq] at hsplit
    rw [hsplit.1, he] at hsnap
    cases hsnap
  · simp only [List.cons_append, List.nil_append, List.cons.injEq] at hsplit
    rw [hsplit.2.1, he] at hlisting
    cases hlisting
  · simp only [List.cons_append, List.nil_append, List.cons.injEq] at hsplit
    obtain ⟨rfl, rfl, rfl, rfl⟩ := hsplit
    exact ⟨aim, [], _, _, rfl, haim, hsettled⟩
  · simp only [List.cons_append, List.cons.injEq] at hsplit
    obtain ⟨rfl, rfl, rfl, hlater⟩ := hsplit
    obtain ⟨aim', seen, snap', listing', hearlier, hbehind⟩ := h earlier e rest hlater he
    exact ⟨aim', _ :: _ :: _ :: seen, snap', listing', by rw [hearlier]; rfl, hbehind⟩

theorem Guarded.of_reads (hreads : ∀ e ∈ calls, e.op.reads = true)
    (hidle : ∀ value, outcome = .ok value → Idle value) :
    Guarded tools args clause n calls outcome where
  few := by
    have hnone : calls.countP (fun e => !e.op.reads) = 0 := by simpa using hreads
    omega
  aimed := .of_reads hreads
  idle := fun value h => .inl (hidle value h)

/-- An op that was not accepted, and what the run does after it. -/
theorem Guarded.cons (haim : aim.Behind tools args clause snap listing sent.op)
    (hsettled : aim.Settled sent calls outcome) (h : Guarded tools args clause n calls outcome) :
    Guarded tools args clause (n + 1) (snap :: listing :: sent :: calls) outcome where
  few := by
    obtain ⟨hsnap, hlisting⟩ := haim.seen.reads
    have hrest := h.few
    simp only [List.countP_cons, hsnap, hlisting, Bool.not_true, Bool.false_eq_true, if_false]
    split_ifs <;> omega
  aimed := h.aimed.cons haim hsettled
  idle := by
    intro value hvalue
    refine (h.idle value hvalue).imp_right ?_
    rintro ⟨e, he, hdone⟩
    exact ⟨e, by simp [he], hdone⟩

/-- An accepted op and the look at what it did end the run. -/
theorem Guarded.of_carried {resp : Response}
    (haim : aim.Behind tools args clause snap listing sent.op) (hsent : sent.op.reads = false)
    (hresult : accepted sent.result = .ok resp)
    (hpost : post.op = .snapshot aim.obs.rev none none) :
    Guarded tools args clause (n + 1) [snap, listing, sent, post]
      (.ok (receipt aim.obs aim.decision aim.text (accepted post.result))) where
  few := by
    obtain ⟨hsnap, hlisting⟩ := haim.seen.reads
    have hread : post.op.reads = true := by rw [hpost]; rfl
    simp [hsnap, hlisting, hsent, hread]
  aimed := by
    refine Aimed.cons haim (.carried hresult hpost) (.of_reads fun e he => ?_)
    rw [List.mem_singleton.mp he, hpost]
    rfl
  idle := fun value _ => .inr ⟨sent, by simp, hsent, resp, hresult⟩

end Guards

/-- What a decision sends is never a look at the app. -/
theorem reads_opForDecision {ρ : Type} {d : PolicyDecision} {a : OfferedAction}
    {payload : Option String} {delivery : DeliveryMode} {clause : String}
    {keybindings : List KeybindingInfo} {invokeArgs : ρ → String → String → Except String Json × ρ}
    {world : ρ} {op : Op}
    (h : (opForDecision d a payload delivery clause keybindings invokeArgs world).1 = .ok op) :
    op.reads = false := by
  rcases opForDecision_cases h with ⟨t, fp, -, -, hgate⟩ | ⟨-, ⟨kb, rfl⟩ | ⟨name, args, rfl⟩⟩
  · cases op <;> first | rfl | cases hgate
  · rfl
  · rfl

section Passes

variable {σ : Type*} (answer : σ → Op → Except String Response × σ) (tools : InstinctTools)
  (args : Json)

/-- What is observed, or two calls at most that only read. -/
theorem observe_cases (s : σ) :
    (∃ err t calls, (observe tools args).ran answer s = ⟨.error err, t, calls⟩ ∧
      ∀ e ∈ calls, e.op.reads = true) ∨
    ∃ snap listing snapReply listingReply obs t,
      (observe tools args).ran answer s = ⟨.ok obs, t, [snap, listing]⟩ ∧
      Seen tools args snap listing snapReply listingReply obs := by
  unfold observe
  have hsnap : (expectOk (.snapshot none none none)).ran answer s = _ := ran_expectOk s _
  cases hsnapReply : accepted (answer s (.snapshot none none none)).1 with
  | error err =>
    rw [hsnapReply] at hsnap
    rw [ran_bind_error hsnap]
    exact .inl ⟨_, _, _, rfl, by simp [Op.reads]⟩
  | ok snapReply =>
    rw [hsnapReply] at hsnap
    rw [ran_bind_ok hsnap]
    cases htree : okOr "host returned no ui tree" snapReply.tree with
    | error err =>
      rw [ran_ofExcept_bind_error]
      exact .inl ⟨_, _, _, rfl, by simp [Op.reads]⟩
    | ok tree =>
      rw [ran_ofExcept_bind_ok]
      have hlisting : (expectOk .keybindings).ran answer
          (answer s (.snapshot none none none)).2 = _ := ran_expectOk _ _
      cases hlistingReply : accepted
          (answer (answer s (.snapshot none none none)).2 .keybindings).1 with
      | error err =>
        rw [hlistingReply] at hlisting
        rw [ran_bind_error hlisting]
        exact .inl ⟨_, _, _, rfl, by simp [Op.reads]⟩
      | ok listingReply =>
        rw [hlistingReply] at hlisting
        rw [ran_bind_ok hlisting, ran_ofExcept]
        cases hobs : observed tools args snapReply listingReply with
        | error err => exact .inl ⟨_, _, _, rfl, by simp [Op.reads]⟩
        | ok obs =>
          exact .inr ⟨_, _, snapReply, listingReply, obs, _, rfl,
            rfl, rfl, hsnapReply, hlistingReply, hobs⟩

/-- What became of an op that was sent. -/
inductive Sent (obs : Observed) (d : PolicyDecision) (text : Option String) (op : Op) :
    List (Exchange σ) → Except String ActStep → Prop
  | stale {sent : Exchange σ} {err : String} (hop : sent.op = op)
      (hresult : accepted sent.result = .error err) (hstale : isStaleDispatchError err = true) :
      Sent obs d text op [sent] (.ok .stale)
  | refused {sent : Exchange σ} {err : String} (hop : sent.op = op)
      (hresult : accepted sent.result = .error err) (hstale : isStaleDispatchError err = false) :
      Sent obs d text op [sent] (.error err)
  | carried {sent post : Exchange σ} {resp : Response} (hop : sent.op = op)
      (hresult : accepted sent.result = .ok resp) (hpost : post.op = .snapshot obs.rev none none) :
      Sent obs d text op [sent, post] (.ok (.done (receipt obs d text (accepted post.result))))

/-- A pass that sends no op. -/
def Quiet (calls : List (Exchange σ)) (outcome : Except String ActStep) : Prop :=
  (∀ e ∈ calls, e.op.reads = true) ∧
    ∀ step, outcome = .ok step → ∃ value, step = .done value ∧ Idle value

theorem Quiet.error {calls : List (Exchange σ)} (hreads : ∀ e ∈ calls, e.op.reads = true)
    (err : String) : Quiet calls (.error err) :=
  ⟨hreads, fun _ hstep => by cases hstep⟩

theorem Quiet.done {calls : List (Exchange σ)} (hreads : ∀ e ∈ calls, e.op.reads = true)
    {value : Json} (h : Idle value) : Quiet calls (.ok (.done value)) :=
  ⟨hreads, fun _ hstep => ⟨value, (Except.ok.inj hstep).symm, h⟩⟩

variable (clause : String) (delivery : DeliveryMode) (obs : Observed) (d : PolicyDecision)
  (action : OfferedAction)

theorem dispatch_cases (text : Option String) (s : σ) :
    let ran := (dispatch tools args clause delivery obs d action text).ran answer s
    (∃ err, ran = ⟨.error err, s, []⟩) ∨
      ∃ op, actOp tools args clause delivery obs d action text = .ok op ∧
        Sent obs d text op ran.calls ran.outcome := by
  intro ran
  unfold ran dispatch
  cases hop : actOp tools args clause delivery obs d action text with
  | error err => exact .inl ⟨err, rfl⟩
  | ok op =>
    refine .inr ⟨op, rfl, ?_⟩
    rw [ran_ofExcept_bind_ok, ran_bind_ok (ran_attempt s op)]
    cases hresult : accepted (answer s op).1 with
    | error err =>
      dsimp only
      split_ifs with hstale
      · exact .stale rfl hresult hstale
      · exact .refused rfl hresult (Bool.eq_false_iff.mpr hstale)
    | ok resp => exact .carried rfl hresult rfl

/-- Controls and a missing payload send nothing. -/
theorem carryOut_cases (k : Nat) (s : σ) :
    let ran := (carryOut tools args clause delivery k obs d action).ran answer s
    Quiet ran.calls ran.outcome ∨
      ∃ text op, textPayload obs clause d action = .ok text ∧
        actOp tools args clause delivery obs d action text = .ok op ∧
        Sent obs d text op ran.calls ran.outcome := by
  intro ran
  have hnone : ∀ e ∈ ([] : List (Exchange σ)), e.op.reads = true := List.forall_mem_nil _
  unfold ran carryOut
  split
  · rw [ran_pure]
    exact .inl (.done hnone (idle_finished _))
  · rw [ran_pure]
    exact .inl (.done hnone (idle_abstained _ _ _))
  · rw [ran_pure]
    exact .inl (.done hnone (idle_abstained _ _ _))
  · cases htext : textPayload obs clause d action with
    | error err =>
      dsimp only
      rw [ran_pure]
      exact .inl (.done hnone (idle_abstained _ _ _))
    | ok text =>
      rcases dispatch_cases answer tools args clause delivery obs d action text s with
        ⟨err, hran⟩ | ⟨op, hop, hsent⟩
      · dsimp only
        rw [hran]
        exact .inl (.error hnone err)
      · exact .inr ⟨text, op, rfl, hop, hsent⟩

variable {tools args clause obs d action delivery}

/-- A chosen action is offered and harmless, and its op is what `Aim.Behind` asks for. -/
theorem Aim.behind_of_choice {snap listing : Exchange σ} {snapReply listingReply : Response}
    {text : Option String} {op : Op}
    (hseen : Seen tools args snap listing snapReply listingReply obs)
    (hchosen : decide tools obs clause = .ok (.choice d))
    (hoffered : obs.space.get d.actionId = some action)
    (hdelivery : parseDelivery args = .ok delivery)
    (htext : textPayload obs clause d action = .ok text)
    (hop : actOp tools args clause delivery obs d action text = .ok op) :
    Aim.Behind tools args clause ⟨snapReply, listingReply, obs, d, action, text⟩ snap listing
      op := by
  obtain ⟨a, hget, hkind, hharmless⟩ :=
    InstinctPolicy.decide_safe tools.lex tools.inst _ _ _ _ (mapError_eq_ok.mp hchosen)
  obtain rfl : a = action := Option.some.inj (hget.symm.trans hoffered)
  refine ⟨hseen, hchosen, hoffered, hkind, hharmless, htext, ⟨delivery, hdelivery, hop⟩,
    opForDecision_confirms hop, fun hbound => ?_⟩
  obtain ⟨tree, htree, hobs⟩ := bind_eq_ok.mp hseen.observed
  obtain ⟨keybindings, -, hobs⟩ := bind_eq_ok.mp hobs
  obtain ⟨invokes, -, hobs⟩ := bind_eq_ok.mp hobs
  cases hobs
  obtain ⟨t, fp, ht, hfp, hgate⟩ := opForDecision_gate hbound hop
  obtain ⟨row, hrow, htarget, hfingerprint⟩ :=
    ActionSpace.node_of_get_fromTree hget (hkind ▸ hbound)
  refine ⟨tree, row, okOr_eq_ok.mp htree, hrow, ?_⟩
  rw [hgate, Option.some.inj (ht.symm.trans htarget), Option.some.inj (hfp.symm.trans hfingerprint)]

variable (tools args clause)

/-- A pass sends nothing, or an op right after the two calls that it was decided on. -/
theorem actAttempt_cases (s : σ) :
    let ran := (actAttempt tools args clause).ran answer s
    Quiet ran.calls ran.outcome ∨
      ∃ (aim : Aim) (snap listing : Exchange σ) (op : Op) (calls : List (Exchange σ)),
        ran.calls = snap :: listing :: calls ∧ aim.Behind tools args clause snap listing op ∧
        Sent aim.obs aim.decision aim.text op calls ran.outcome := by
  intro ran
  unfold ran actAttempt
  cases hdelivery : parseDelivery args with
  | error err =>
    rw [ran_ofExcept_bind_error]
    exact .inl (.error (List.forall_mem_nil _) err)
  | ok delivery =>
    rw [ran_ofExcept_bind_ok]
    dsimp only
    rcases observe_cases answer tools args s with
      ⟨err, t, calls, hran, hreads⟩ | ⟨snap, listing, snapReply, listingReply, obs, t, hran, hseen⟩
    · rw [ran_bind_error hran]
      exact .inl (.error hreads err)
    rw [ran_bind_ok hran]
    have hreads : ∀ e ∈ [snap, listing], e.op.reads = true := by simp [hseen.reads]
    cases hdecide : decide tools obs clause with
    | error err =>
      rw [ran_ofExcept_bind_error]
      exact .inl (.error hreads err)
    | ok outcome =>
      rw [ran_ofExcept_bind_ok]
      cases outcome with
      | abstain reason operationRanked targetRanked =>
        dsimp only
        rw [ran_pure]
        exact .inl (.done hreads (idle_abstained _ _ _))
      | choice d =>
        dsimp only
        cases haction : okOr "chosen action left the space" (obs.space.get d.actionId) with
        | error err =>
          rw [ran_ofExcept_bind_error]
          exact .inl (.error hreads err)
        | ok action =>
          rw [ran_ofExcept_bind_ok]
          rcases carryOut_cases answer tools args clause delivery obs d action (rowLimit args) t
            with ⟨hquiet, hidle⟩ | ⟨text, op, htext, hop, hsent⟩
          · refine .inl ⟨fun e he => ?_, hidle⟩
            rcases List.mem_append.mp he with he | he
            · exact hreads e he
            · exact hquiet e he
          · exact .inr ⟨⟨snapReply, listingReply, obs, d, action, text⟩, snap, listing, op, _, rfl,
              Aim.behind_of_choice hseen hdecide (okOr_eq_ok.mp haction) hdelivery htext hop, hsent⟩

/-- A pass is guarded when what it leaves to `retry` is. -/
theorem guarded_actElse {retry : Tool Json} {n : Nat}
    (hretry : ∀ s, let ran := retry.ran answer s
      Guarded tools args clause n ran.calls ran.outcome) (s : σ) :
    let ran := (actElse tools args clause retry).ran answer s
    Guarded tools args clause (n + 1) ran.calls ran.outcome := by
  intro ran
  unfold ran actElse
  have hpass := actAttempt_cases answer tools args clause s
  rcases hran : (actAttempt tools args clause).ran answer s with ⟨outcome, t, calls⟩
  rw [hran] at hpass
  rcases hpass with ⟨hreads, hidle⟩ | ⟨aim, snap, listing, op, calls, rfl, haim, hsent⟩
  · cases outcome with
    | error err =>
      rw [ran_bind_error hran]
      exact .of_reads hreads fun _ h => by cases h
    | ok step =>
      obtain ⟨value, rfl, hvalue⟩ := hidle step rfl
      rw [ran_bind_ok hran]
      dsimp only
      rw [ran_pure, List.append_nil]
      refine .of_reads hreads fun value' h => ?_
      obtain rfl : value = value' := Except.ok.inj h
      exact hvalue
  · obtain ⟨delivery, -, hop⟩ := haim.sent
    have hreads := reads_opForDecision hop
    cases hsent with
    | stale hsame hresult hstale =>
      -- only here the run goes on, in the state that the refusal left behind
      subst hsame
      rw [ran_bind_ok hran]
      exact (hretry t).cons haim (.stale hresult hstale)
    | refused hsame hresult hstale =>
      subst hsame
      rw [ran_bind_error hran]
      refine Guarded.cons haim (.refused hresult hstale) ?_
      exact .of_reads (List.forall_mem_nil _) fun _ h => by cases h
    | carried hsame hresult hpost =>
      subst hsame
      rw [ran_bind_ok hran]
      dsimp only
      rw [ran_pure, List.append_nil]
      exact .of_carried haim hreads hresult hpost

theorem guarded_actLoop (retries : Nat) (s : σ) :
    let ran := (actLoop tools args clause retries).ran answer s
    Guarded tools args clause (retries + 1) ran.calls ran.outcome := by
  induction retries generalizing s with
  | zero =>
    -- nothing is left to try: `givenUp` makes no call
    refine guarded_actElse answer tools args clause (fun t => ?_) s
    rw [ran_pure]
    refine .of_reads (List.forall_mem_nil _) fun value h => ?_
    obtain rfl : givenUp = value := Except.ok.inj h
    exact idle_givenUp
  | succ retries ih => exact guarded_actElse answer tools args clause ih s

/-- However its calls are answered, `act` is guarded, unless it has no clause to act on. -/
theorem guarded_act (s : σ) :
    let ran := (act tools args).ran answer s
    (ran.calls = [] ∧ ∃ err, ran.outcome = .error err) ∨
      ∃ instruction clause, string args "instruction" = .ok instruction ∧
        (splitSequentialClauses instruction).head? = some clause ∧
        Guarded tools args clause (MAX_STALE_RETRIES + 1) ran.calls ran.outcome := by
  intro ran
  unfold ran act
  cases hinstruction : string args "instruction" with
  | error err =>
    rw [ran_ofExcept_bind_error]
    exact .inl ⟨rfl, err, rfl⟩
  | ok instruction =>
    rw [ran_ofExcept_bind_ok]
    cases hclause : okOr "instruction has no clause"
        (splitSequentialClauses instruction).head? with
    | error err =>
      rw [ran_ofExcept_bind_error]
      exact .inl ⟨rfl, err, rfl⟩
    | ok clause =>
      rw [ran_ofExcept_bind_ok]
      exact .inr ⟨instruction, clause, rfl, okOr_eq_ok.mp hclause,
        guarded_actLoop answer tools args clause MAX_STALE_RETRIES s⟩

/-- `locate` only looks. -/
theorem locate_reads (s : σ) : ∀ e ∈ ((locate tools args).ran answer s).calls,
    e.op.reads = true := by
  unfold locate
  cases string args "query" with
  | error err =>
    rw [ran_ofExcept_bind_error]
    exact List.forall_mem_nil _
  | ok query =>
    rw [ran_ofExcept_bind_ok]
    dsimp only
    rcases observe_cases answer tools args s with
      ⟨err, t, calls, hran, hreads⟩ | ⟨snap, listing, snapReply, listingReply, obs, t, hran, hseen⟩
    · rw [ran_bind_error hran]
      exact hreads
    rw [ran_bind_ok hran]
    have hreads : ∀ e ∈ [snap, listing], e.op.reads = true := by simp [hseen.reads]
    cases decide tools obs query with
    | error err =>
      rw [ran_ofExcept_bind_error]
      exact hreads
    | ok outcome =>
      rw [ran_ofExcept_bind_ok]
      cases outcome with
      | abstain reason operationRanked targetRanked => exact hreads
      | choice d =>
        dsimp only
        cases okOr "chosen action left the space" (obs.space.get d.actionId) with
        | error err => exact hreads
        | ok action => exact hreads

end Passes

end Mcp

end GpuiAgent
