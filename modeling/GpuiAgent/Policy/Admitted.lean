import GpuiAgent.Policy.MenuEcho
import GpuiAgent.Policy.Runner

namespace GpuiAgent

open Framework

/-- A decision is an offered action under its own kind, and a harmless one. -/
def ActionSpace.Admits (space : ActionSpace) (d : PolicyDecision) : Prop :=
  ∃ a, space.get d.actionId = some a ∧ a.kind = d.kind ∧ a.dangerous = false

/-- A policy whose choices are all admitted. -/
def Decide.Safe (decide : Decide) : Prop :=
  ∀ space goal history d, decide space goal history = .ok (.choice d) → space.Admits d

section Instinct

variable {lex : Lexicon} {inst : Instinct} {space : ActionSpace} {goal : String}
  {ctx : GoalEvidence} {history : List HistoryEntry} {operationRanked targetRanked :
  List RankedAction} {d : PolicyDecision}

theorem doneChoice_admits (h : doneChoice space operationRanked targetRanked = some d) :
    space.Admits d := by
  obtain ⟨done, hdone, rfl⟩ := Option.map_eq_some_iff.mp h
  have hget := ActionSpace.get_of_getStr hdone
  obtain ⟨hk, -, hs⟩ := ActionSpace.control_of_get hget
  have hid := ActionSpace.id_of_get hget
  exact ⟨done, hid ▸ hget, hk, hs⟩

theorem unlessRepeated_admits {repeated : Bool} {done : Option PolicyDecision}
    (hdone : ∀ d', done = some d' → space.Admits d') (h : space.Admits d) :
    space.Admits (unlessRepeated repeated done d) := by
  unfold unlessRepeated
  split_ifs
  · cases done with
    | none => exact h
    | some d' => exact hdone d' rfl
  · exact h

/-- The target head answers with one of the offers it was given. -/
theorem chooseTargets_mem {scored : List (OfferedAction × Confidence)} {a : OfferedAction}
    (h : chooseTargets inst scored history = .ok (some a, targetRanked)) :
    a ∈ scored.map Prod.fst := by
  unfold chooseTargets at h
  split at h
  · simp at h
  · simp only [Except.ok.injEq, Prod.mk.injEq] at h
    obtain ⟨ha, -⟩ := h
    split_ifs at ha
    cases ha
    simp
  · obtain ⟨arbitration, -, h⟩ := bind_eq_ok.mp h
    obtain ⟨ranked, -, h⟩ := bind_eq_ok.mp h
    cases hanswer : arbitration.answer with
    | choice option =>
      rw [hanswer] at h
      obtain ⟨id, -, h⟩ := bind_eq_ok.mp h
      obtain ⟨row, hrow, h⟩ := bind_eq_ok.mp h
      have hmem := List.mem_of_find?_eq_some (okOr_eq_ok.mp hrow)
      cases h
      exact List.mem_map_of_mem hmem
    | abstain =>
      rw [hanswer] at h
      cases h
    | other debug =>
      rw [hanswer] at h
      cases h

/-- A target verdict is an offer of the space, and no control. -/
theorem get_of_arbitrated {heads : List OperationHead} {a : OfferedAction}
    (h : arbitrated lex inst goal ctx space history heads =
      .ok (.target a operationRanked targetRanked)) :
    space.get a.id = some a ∧ a.kind.isControl = false := by
  obtain ⟨⟨chosen, ranked⟩, -, h⟩ := bind_eq_ok.mp h
  cases chosen with
  | none => cases h
  | some kind =>
    dsimp only at h
    split_ifs at h with hc
    · cases h
    · cases h
    obtain ⟨⟨chosen, tranked⟩, htargets, h⟩ := bind_eq_ok.mp h
    cases chosen with
    | none => cases h
    | some action =>
      cases h
      have hmem := chooseTargets_mem htargets
      rw [List.map_map] at hmem
      obtain ⟨b, hb, rfl⟩ := List.mem_map.mp hmem
      obtain ⟨hget, hk, -⟩ := ActionSpace.mem_targetsOf.mp hb
      exact ⟨hget, by simpa [hk] using hc⟩

/-- A control is settled as the action the space has under its token. -/
theorem settle_control {kind : ActionKind}
    (h : settle lex goal ctx space history (.control kind operationRanked) = .ok (.choice d)) :
    ∃ (action : OfferedAction) (ranked : RankedAction), space.get kind.asStr = some action ∧
      d = unlessRepeated (!chosenKindIsTerminal kind && satisfiedByHistory history action.id)
        (doneChoice space operationRanked [])
        ⟨action.id, kind, action.label, ranked.confidenceMillis, operationRanked, []⟩ := by
  obtain ⟨id, hid, h⟩ := bind_eq_ok.mp h
  obtain ⟨action, haction, h⟩ := bind_eq_ok.mp h
  obtain ⟨ranked, -, h⟩ := bind_eq_ok.mp h
  rw [mapError_eq_ok, ActionId.tryNew_eq_ok] at hid
  rw [okOr_eq_ok, hid.1] at haction
  cases h
  exact ⟨action, ranked, haction, rfl⟩

theorem settle_admits {verdict : Verdict}
    (htarget : ∀ a r t, verdict = .target a r t → space.get a.id = some a)
    (h : settle lex goal ctx space history verdict = .ok (.choice d)) : space.Admits d := by
  cases verdict with
  | operationAbstain r => cases h
  | noTargets kind r => cases h
  | targetAbstain r t => cases h
  | control kind r =>
    obtain ⟨action, ranked, haction, rfl⟩ := settle_control h
    obtain ⟨hk, -, hs⟩ := ActionSpace.control_of_get haction
    exact unlessRepeated_admits (fun _ => doneChoice_admits)
      ⟨action, ActionSpace.id_of_get haction ▸ haction, hk, hs⟩
  | target action r t =>
    obtain ⟨ranked, -, h⟩ := bind_eq_ok.mp h
    split_ifs at h with hd
    · cases h
    · cases h
      exact unlessRepeated_admits (fun _ => doneChoice_admits)
        ⟨action, htarget action r t rfl, rfl, by simpa using hd⟩

theorem InstinctPolicy.decide_safe (lex : Lexicon) (inst : Instinct) :
    Decide.Safe (InstinctPolicy.decide lex inst) := by
  intro space goal history d h
  obtain ⟨heads, -, ⟨done, hdone, he⟩ | ⟨verdict, hverdict, h⟩⟩ := decide_cases h
  · cases he
    unfold detectedDone at hdone
    split_ifs at hdone
    exact doneChoice_admits hdone
  · refine settle_admits ?_ h
    rintro a r t rfl
    exact (get_of_arbitrated hverdict).1

end Instinct

section Escalation

variable {parseJson : String → Except String Json} {call : Json → Except String String}
  {space : ActionSpace} {d : PolicyDecision}

open CommandEscalation

/-- Whatever the reply, a choice read from it is an offered harmless action under its own kind. -/
theorem parseChooseReply_admits {reply : String}
    (h : parseChooseReply parseJson space reply = .ok (.choice d)) : space.Admits d := by
  obtain ⟨value, -, h⟩ := bind_eq_ok.mp h
  obtain ⟨obj, -, h⟩ := bind_eq_ok.mp h
  obtain ⟨-, -, h⟩ := bind_eq_ok.mp h
  cases hr : obj.lookup "abstain" with
  | some reason =>
    rw [hr] at h
    obtain ⟨text, -, h⟩ := bind_eq_ok.mp h
    cases h
  | none =>
    rw [hr] at h
    obtain ⟨choice, -, h⟩ := bind_eq_ok.mp h
    obtain ⟨-, -, h⟩ := bind_eq_ok.mp h
    obtain ⟨id, -, h⟩ := bind_eq_ok.mp h
    obtain ⟨op, -, h⟩ := bind_eq_ok.mp h
    obtain ⟨offered, hoffered, h⟩ := bind_eq_ok.mp h
    obtain ⟨-, -, h⟩ := bind_eq_ok.mp h
    have hget := ActionSpace.get_of_getStr (okOr_eq_ok.mp hoffered)
    split_ifs at h with hd
    · cases h
    · cases h
      exact ⟨offered, ActionSpace.id_of_get hget ▸ hget, rfl, by simpa using hd⟩

theorem decideEscalating_safe (parseJson : String → Except String Json)
    (call : Json → Except String String) (report : AbstainReport) :
    Decide.Safe (decideEscalating parseJson call report) := by
  intro space goal history d h
  unfold decideEscalating at h
  split_ifs at h
  cases hc : choose parseJson call space goal history report with
  | error protocol =>
    rw [hc] at h
    cases h
  | ok outcome =>
    rw [hc] at h
    cases h
    obtain ⟨reply, -, hreply⟩ := bind_eq_ok.mp hc
    exact parseChooseReply_admits hreply

/-- Escalation keeps a safe local policy safe when its fallback is. -/
theorem EscalatingPolicy.decide_safe {policy : EscalatingPolicy} (hl : policy.decideLocal.Safe)
    (hf : ∀ fallback, policy.fallback = some fallback → ∀ report, Decide.Safe (fallback report)) :
    Decide.Safe fun space goal history => (policy.decide space goal history).1 := by
  intro space goal history d h
  unfold EscalatingPolicy.decide at h
  cases hd : policy.decideLocal space goal history with
  | error e => simp [hd] at h
  | ok outcome =>
    cases outcome with
    | choice c =>
      simp only [hd, Except.ok.injEq, PolicyOutcome.choice.injEq] at h
      exact hl space goal history d (h ▸ hd)
    | abstain reason r t =>
      simp only [hd] at h
      cases hfb : policy.fallback with
      | none => simp [hfb] at h
      | some fallback =>
        simp only [hfb] at h
        split_ifs at h
        · cases h
        · exact hf fallback hfb _ space goal history d h

end Escalation

/-- A dispatch that asks a host to run a dangerous binding. -/
def Op.confirms : Op → Bool
  | .keybinding _ _ _ confirm _ => confirm
  | _ => false

section Dispatch

variable {σ : Type*} {d : PolicyDecision} {a : OfferedAction} {payload : Option String}
  {delivery : DeliveryMode} {clause : String} {keybindings : List KeybindingInfo}
  {invokeArgs : σ → String → String → Except String Json × σ} {world : σ} {op : Op}

/-- What a decision sends: an op on the node of its offer, gated by the fingerprint of the offer, a
binding that it does not confirm, or an invoke. -/
theorem opForDecision_cases
    (h : (opForDecision d a payload delivery clause keybindings invokeArgs world).1 = .ok op) :
    (∃ t fp, a.target = some t ∧ a.fingerprint = some fp ∧ op.fingerprintGate = some (t, fp)) ∨
      d.kind.nodeBound = false ∧
        ((∃ kb : KeybindingInfo, op = .keybinding kb.id (some kb.chord) kb.scope false false) ∨
          ∃ name args, op = .invoke name args) := by
  unfold opForDecision at h
  cases hk : d.kind <;> simp only [hk] at h
  case click | type | setValue =>
    obtain ⟨t, ht, h⟩ := bind_eq_ok.mp h
    cases hf : a.fingerprint <;> simp [okOr, hf, Except.map] at h
    subst h
    exact .inl ⟨t, _, okOr_eq_ok.mp ht, rfl, rfl⟩
  case key =>
    obtain ⟨t, ht, h⟩ := bind_eq_ok.mp h
    obtain ⟨key, -, h⟩ := bind_eq_ok.mp h
    cases hf : a.fingerprint <;> simp [okOr, hf, Except.map] at h
    subst h
    exact .inl ⟨t, _, okOr_eq_ok.mp ht, rfl, rfl⟩
  case keybinding =>
    obtain ⟨id, -, h⟩ := bind_eq_ok.mp h
    obtain ⟨kb, -, h⟩ := bind_eq_ok.mp h
    cases h
    exact .inr ⟨rfl, .inl ⟨kb, rfl⟩⟩
  case invoke =>
    cases ht : a.target with
    | none => simp [okOr, ht] at h
    | some name =>
      simp only [okOr, ht] at h
      cases hargs : (invokeArgs world name clause).1 <;> simp [hargs, Except.map] at h
      subst h
      exact .inr ⟨rfl, .inr ⟨name, _, rfl⟩⟩
  all_goals cases h

theorem Op.confirms_of_gate {gate : String × UInt64} (h : op.fingerprintGate = some gate) :
    op.confirms = false := by
  cases op <;> first | rfl | cases h

theorem opForDecision_confirms
    (h : (opForDecision d a payload delivery clause keybindings invokeArgs world).1 = .ok op) :
    op.confirms = false := by
  rcases opForDecision_cases h with ⟨t, fp, -, -, hgate⟩ | ⟨-, ⟨kb, rfl⟩ | ⟨name, args, rfl⟩⟩
  · exact Op.confirms_of_gate hgate
  · rfl
  · rfl

/-- A node-bound op is gated by the target and the fingerprint of its offer. -/
theorem opForDecision_gate (hn : d.kind.nodeBound = true)
    (h : (opForDecision d a payload delivery clause keybindings invokeArgs world).1 = .ok op) :
    ∃ t fp, a.target = some t ∧ a.fingerprint = some fp ∧ op.fingerprintGate = some (t, fp) := by
  rcases opForDecision_cases h with hgate | ⟨hother, -⟩
  · exact hgate
  · rw [hn] at hother
    cases hother

end Dispatch

/-- The local policy with the escalation command, if there is one, as its fallback. -/
def localWithCommand (lex : Lexicon) (inst : Instinct) (parseJson : String → Except String Json)
    (call : Option (Json → Except String String)) : EscalatingPolicy where
  decideLocal := InstinctPolicy.decide lex inst
  fallback := call.map fun call => CommandEscalation.decideEscalating parseJson call

theorem localWithCommand_safe (lex : Lexicon) (inst : Instinct)
    (parseJson : String → Except String Json) (call : Option (Json → Except String String)) :
    Decide.Safe fun space goal history =>
      ((localWithCommand lex inst parseJson call).decide space goal history).1 := by
  refine EscalatingPolicy.decide_safe (InstinctPolicy.decide_safe lex inst) ?_
  rintro fallback hf report
  obtain ⟨call, -, rfl⟩ := Option.map_eq_some_iff.mp hf
  exact decideEscalating_safe parseJson call report

/-- Every choice, the local policy's or one read from any reply of the endpoint, is an offered
harmless action under its own kind, and an op made from it never confirms and is gated by the
fingerprint of the node it acts on. -/
theorem ActionSpace.choice_admitted (lex : Lexicon) (inst : Instinct)
    (parseJson : String → Except String Json) (call : Option (Json → Except String String))
    (tree : UiTree) (keybindings : List KeybindingInfo) (invokes : List OfferedInvoke)
    (goal : UiGoal) (history : List HistoryEntry) {d : PolicyDecision}
    (h : InstinctPolicy.decide lex inst (fromTree lex tree keybindings invokes) goal history =
        .ok (.choice d) ∨
      ((localWithCommand lex inst parseJson call).decide
        (fromTree lex tree keybindings invokes) goal history).1 = .ok (.choice d)) :
    ∃ a, (fromTree lex tree keybindings invokes).get d.actionId = some a ∧ a.kind = d.kind ∧
      a.dangerous = false ∧
      ∀ {σ : Type} payload delivery clause catalog
        (invokeArgs : σ → String → String → Except String Json × σ) world op,
        (opForDecision d a payload delivery clause catalog invokeArgs world).1 = .ok op →
          op.confirms = false ∧ (d.kind.nodeBound = true →
            ∃ row ∈ viableNodes none true tree.nodes, op.fingerprintGate =
              some (row.2.id, UiNode.fingerprint row.2 (row.1.map (·.id)))) := by
  have hadmit : (fromTree lex tree keybindings invokes).Admits d := by
    rcases h with h | h
    · exact InstinctPolicy.decide_safe lex inst _ _ _ _ h
    · exact localWithCommand_safe lex inst parseJson call _ _ _ _ h
  obtain ⟨a, hget, hk, hd⟩ := hadmit
  refine ⟨a, hget, hk, hd, ?_⟩
  intro σ payload delivery clause catalog invokeArgs world op hop
  refine ⟨opForDecision_confirms hop, fun hn => ?_⟩
  obtain ⟨t, fp, ht, hfp, hgate⟩ := opForDecision_gate hn hop
  obtain ⟨row, hrow, htarget, hfingerprint⟩ := node_of_get_fromTree hget (hk ▸ hn)
  refine ⟨row, hrow, ?_⟩
  rw [hgate, Option.some.inj (ht.symm.trans htarget), Option.some.inj (hfp.symm.trans hfingerprint)]

def saveDecision : PolicyDecision where
  actionId := "CLICK:save"
  kind := .click
  targetLabel := "Save"
  confidenceMillis := 1000
  operationRanked := [⟨"CLICK", .click, "CLICK", 1000⟩, ⟨"DONE", .done, "DONE", 50⟩,
    ⟨"BLOCKED", .blocked, "BLOCKED", 50⟩, ⟨"WAIT", .wait, "WAIT", 50⟩]
  targetRanked := [⟨"CLICK:save", .click, "Save", 1000⟩]

theorem ActionSpace.choice_admitted_save :
    (clickButton "save").dangerous = false ∧ ∃ op,
      (opForDecision saveDecision (clickButton "save") none .semantic "click Save" []
        (fun (_ : Unit) _ _ => (.error "no schema", ())) ()).1 = .ok op ∧ op.confirms = false ∧
      ∃ row ∈ viableNodes none true (buttonTree "save").nodes,
        op.fingerprintGate = some (row.2.id, UiNode.fingerprint row.2 (row.1.map (·.id))) := by
  obtain ⟨a, hget, -, hd, hop⟩ := choice_admitted .ascii .standard (fun _ => .error "not read") none
    (buttonTree "save") [] [] (.new "click Save") [] (d := saveDecision) (.inl (by decide +kernel))
  have hsave : (buttonSpace "save").get "CLICK:save" = some (clickButton "save") := by
    decide +kernel
  obtain rfl : a = clickButton "save" := Option.some.inj (hget.symm.trans hsave)
  have hgate := hop none .semantic "click Save" [] (fun (_ : Unit) _ _ => (.error "no schema", ()))
    () _ rfl
  exact ⟨hd, _, rfl, hgate.1, hgate.2 rfl⟩

end GpuiAgent
