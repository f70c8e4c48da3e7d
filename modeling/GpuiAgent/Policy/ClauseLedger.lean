import GpuiAgent.Policy.Admitted

namespace GpuiAgent

open Framework

section Decision

variable (lex : Lexicon) (inst : Instinct) (space : ActionSpace) (goal : String)
  (history : List HistoryEntry)

/-- The verdict of both heads, done-detection left aside. -/
def verdictOf : Except PolicyError Verdict := do
  let ctx := goalEvidence lex goal space
  let heads ← (offeredKinds space).mapM (operationHead lex goal ctx space)
  arbitrated lex inst goal ctx space history heads

/-- The heads pick the last step's offer again, and its present label is what the clause asked
for. -/
def pickedAgain (last : HistoryEntry) : Bool :=
  match verdictOf lex inst space goal history with
  | .ok (.target a _ _) =>
    a.id = last.actionId && clauseEffectDone lex goal a.label (goalEvidence lex goal space) space
  | _ => false

/-- The last step closes the clause: it had a real effect, and its offer is gone, its label is what
the clause asked for, or it would only be repeated. -/
def entryCloses (last : HistoryEntry) : Bool :=
  satisfiedEntry last &&
    ((space.get last.actionId).isNone ||
      clauseEffectDone lex goal last.label (goalEvidence lex goal space) space ||
      pickedAgain lex inst space goal history last)

/-- The arbitration itself picks `DONE`. -/
def arbitrationDone : Bool :=
  match verdictOf lex inst space goal history with
  | .ok (.control .done _) => true
  | _ => false

end Decision

section Decision

variable {lex : Lexicon} {inst : Instinct} {space : ActionSpace} {goal : UiGoal}
  {history : List HistoryEntry} {d : PolicyDecision}

/-- `DONE` is chosen because of the last step or by the arbitration. -/
theorem InstinctPolicy.decide_done (htargeted : ∀ e ∈ history, ':' ∈ e.actionId.toList)
    (h : InstinctPolicy.decide lex inst space goal history = .ok (.choice d))
    (hk : d.kind = .done) :
    (∃ last, history.getLast? = some last ∧
      entryCloses lex inst space goal.text history last = true) ∨
      arbitrationDone lex inst space goal.text history = true := by
  obtain ⟨heads, hheads, ⟨done, hdone, -⟩ | ⟨verdict, hverdict, h⟩⟩ := decide_cases h
  · unfold detectedDone doneDetected at hdone
    split_ifs at hdone with hc
    obtain ⟨last, hlast, hc⟩ := (Option.any_eq_true _ _).mp hc
    simp only [Bool.and_eq_true] at hc
    exact .inl ⟨last, hlast, by simp [entryCloses, hc.1, hc.2]⟩
  · have hv : verdictOf lex inst space goal.text history = .ok verdict := by
      rw [verdictOf, hheads]
      exact hverdict
    cases verdict with
    | operationAbstain r => cases h
    | noTargets kind r => cases h
    | targetAbstain r t => cases h
    | control kind r =>
      obtain ⟨action, ranked, haction, rfl⟩ := settle_control h
      -- a control is never what a targeted step left in the history
      have hfresh : satisfiedByHistory history action.id = false := by
        refine Bool.eq_false_iff.mpr fun hs => ?_
        obtain ⟨last, hlast, hs⟩ := (Option.any_eq_true _ _).mp hs
        simp only [Bool.and_eq_true, decide_eq_true_eq] at hs
        have hcolon := htargeted last (List.mem_of_getLast? hlast)
        rw [hs.1, ActionSpace.id_of_get haction] at hcolon
        exact kind.colon_not_mem_asStr hcolon
      simp only [hfresh, Bool.and_false, unlessRepeated] at hk
      obtain rfl : kind = .done := hk
      exact .inr (by simp [arbitrationDone, hv])
    | target a r t =>
      obtain ⟨ranked, -, h⟩ := bind_eq_ok.mp h
      split_ifs at h
      · cases h
      · cases h
        have hc := (get_of_arbitrated hverdict).2
        unfold unlessRepeated at hk
        split_ifs at hk with hrep
        · simp only [Bool.and_eq_true] at hrep
          obtain ⟨last, hlast, hs⟩ := (Option.any_eq_true _ _).mp hrep.1
          simp only [Bool.and_eq_true, decide_eq_true_eq] at hs
          refine .inl ⟨last, hlast, ?_⟩
          simp [entryCloses, pickedAgain, hv, hs.1, hs.2, hrep.2]
        · rw [show a.kind = .done from hk] at hc
          cases hc

end Decision

/-- Why a clause was closed: it waited for something on screen, the arbitration picked `DONE`, or an
entry of the history was taken as its effect. -/
inductive Closing where
  | waited | arbitration | history (entry : Nat) | other
  deriving DecidableEq

/-- Kept beside a run: the clause every history entry was dispatched for, and why each clause was
closed. -/
structure Ledger where
  owners : List Nat := []
  closings : List Closing := []
  deriving DecidableEq

namespace Ledger

variable {σ : Type}

/-- Enter what one pass from `s` to `s'` did. -/
def record (l : Ledger) (s : RunState σ) (cause : Closing) (s' : RunState σ) : Ledger where
  owners := l.owners ++ List.replicate (s'.history.length - s.history.length) s.clauseIdx
  closings := if s.clauseIdx < s'.clauseIdx then l.closings ++ [cause] else l.closings

/-- A closing of clause `k` by the history is by a verified entry dispatched for clause `k`. -/
def Accounted (l : Ledger) (history : List HistoryEntry) (k : Nat) : Closing → Prop
  | .waited | .arbitration => True
  | .history j => l.owners[j]? = some k ∧ ∃ e, history[j]? = some e ∧ satisfiedEntry e = true
  | .other => False

end Ledger

namespace Runner

variable {σ : Type} (r : Runner σ) (inst : Instinct) (clauses : List String)
  (keybindings : List KeybindingInfo)

/-- The text and the mode of the clause a pass works on. -/
def current (s : RunState σ) : Option (String × ClauseMode) :=
  clauses[s.clauseIdx]?.bind fun c => clauseMode r.lex (substitutePronouns c s.typed)

/-- The last entry of the history closes the clause at hand. -/
def lastCloses (goalText : String) (s : RunState σ) : Bool :=
  s.history.getLast?.any
    (entryCloses r.lex inst (r.space keybindings s) (UiGoal.new goalText).text s.history)

/-- Why a pass closes its clause, if it does. -/
def cause (s : RunState σ) : Closing :=
  match r.current clauses s with
  | some (_, .waitFor _) => .waited
  | some (goalText, .act) =>
    if r.lastCloses inst keybindings goalText s then .history (s.history.length - 1)
    else if arbitrationDone r.lex inst (r.space keybindings s) (UiGoal.new goalText).text s.history
    then .arbitration
    else .other
  | none => .other

/-- The loop with its ledger. -/
def audit : Nat → RunState σ → Ledger → Turn σ × Ledger
  | 0, s, l => (.next s, l)
  | fuel + 1, s, l =>
    if s.steps.length < r.caps.maxSteps then
      match r.turn clauses keybindings s with
      | .next s' => audit fuel s' (l.record s (r.cause inst clauses keybindings s) s')
      | .stop outcome s' =>
        (.stop outcome s', l.record s (r.cause inst clauses keybindings s) s')
      | t => (t, l)
    else (.stop .capHit s, l)

/-- An entry dispatched for another clause closes the clause at hand. -/
def staleEvidence (s : RunState σ) (l : Ledger) : Bool :=
  match r.current clauses s with
  | some (goalText, .act) =>
    l.owners.getLast? != some s.clauseIdx && r.lastCloses inst keybindings goalText s
  | _ => false

/-- The runner decides with the local policy. -/
def UsesInstinct : Prop :=
  ∀ world space goal history,
    (r.decide world space goal history).1 = InstinctPolicy.decide r.lex inst space goal history

variable {r inst clauses keybindings}

variable (inst) in
theorem audit_fst (fuel : Nat) (s : RunState σ) (l : Ledger) :
    (r.audit inst clauses keybindings fuel s l).1 = r.loop clauses keybindings fuel s := by
  induction fuel generalizing s l with
  | zero => rfl
  | succ fuel ih =>
    unfold audit loop
    split_ifs
    · cases r.turn clauses keybindings s with
      | next s' => exact ih s' _
      | _ => rfl
    · rfl

/-- The clause stays, and at most one entry that satisfies `P` was added to the history. -/
def Kept (P : HistoryEntry → Prop) (s s' : RunState σ) : Prop :=
  s'.clauseIdx = s.clauseIdx ∧
    (s'.history = s.history ∨ ∃ e, P e ∧ s'.history = s.history ++ [e])

/-- A pass that closes no clause and does not end the run as done. -/
def Keeps (P : HistoryEntry → Prop) (s : RunState σ) : Turn σ → Prop
  | .next s' => Kept P s s'
  | .stop outcome s' => outcome ≠ .done ∧ Kept P s s'
  | .fail _ | .panic => True

variable {P : HistoryEntry → Prop} {s : RunState σ}

theorem reobserve_keeps {s' : RunState σ} {k : RunState σ → Turn σ}
    (h : ∀ session tree rev, Keeps P s (k { s' with session, tree, rev })) :
    Keeps P s (r.reobserve s' k) := by
  unfold reobserve
  rcases r.observeSince s'.session s'.tree s'.rev with ⟨e | ⟨changed, tree, rev⟩, session⟩
  · exact trivial
  · exact h _ _ _

theorem waitPoll_keeps : Keeps P s (r.waitPoll s) :=
  reobserve_keeps fun _ _ _ => ⟨rfl, .inl rfl⟩

theorem staleTurn_keeps {s' : RunState σ} {space : ActionSpace} {d : PolicyDecision} {err : String}
    (h : Kept P s s') : Keeps P s (r.staleTurn space d err s') := by
  unfold staleTurn
  dsimp only
  split_ifs
  · exact ⟨by simp, h⟩
  · exact reobserve_keeps fun _ _ _ => h

theorem recordTurn_keeps {s' : RunState σ} {clause : String} {d : PolicyDecision}
    {action : OfferedAction} {payload : Option String} {old : UiTree}
    (hidx : s'.clauseIdx = s.clauseIdx) (hhistory : s'.history = s.history)
    (hP : ∀ e : HistoryEntry, e.actionId = d.actionId → P e) :
    Keeps P s (r.recordTurn clause d action payload old s') := by
  have hkept : ∀ verification, Kept P s (recorded clause d payload verification s') := by
    refine fun verification => ⟨hidx, .inr
      ⟨⟨s'.steps.length + 1, d.actionId, d.kind, d.targetLabel, verification⟩, hP _ rfl, ?_⟩⟩
    rw [← hhistory]
    rfl
  unfold recordTurn
  dsimp only
  split_ifs
  · exact ⟨by simp, hkept _⟩
  · exact hkept _

/-- A dispatch adds at most the entry of its own action, an offered one. -/
theorem dispatchTurn_keeps {s' : RunState σ} {clause goalText : String} {space : ActionSpace}
    {d : PolicyDecision} (hidx : s'.clauseIdx = s.clauseIdx) (hhistory : s'.history = s.history)
    (hP : ∀ e : HistoryEntry, e.actionId = d.actionId → P e) :
    Keeps P s (r.dispatchTurn keybindings clause goalText space d s') := by
  have hkept : Kept P s s' := ⟨hidx, .inl hhistory⟩
  unfold dispatchTurn
  cases space.get d.actionId with
  | none => exact trivial
  | some action =>
    dsimp only
    rcases r.payloadFor goalText d action s' with ⟨err | payload, world⟩
    · refine ⟨?_, hkept⟩
      unfold textOutcome
      dsimp only
      split_ifs <;> simp
    dsimp only
    rcases opForDecision d action payload r.delivery clause keybindings r.invokeArgs world with
      ⟨e | op, world⟩
    · exact trivial
    dsimp only
    rcases r.expectOk { s'.session with world } op with ⟨err | resp, session⟩
    · dsimp only
      split_ifs
      · exact staleTurn_keeps hkept
      · exact trivial
    · exact reobserve_keeps fun _ _ _ => recordTurn_keeps hidx hhistory hP

/-- A pass that closes its clause moves on to the next one, or ends the run after the last. -/
def ClosesTo (clauses : List String) (s : RunState σ) (t : Turn σ) : Prop :=
  ∃ s', s'.clauseIdx = s.clauseIdx + 1 ∧ s'.history = s.history ∧
    (t = .next s' ∨ t = .stop .done s' ∧ clauses.length ≤ s'.clauseIdx)

/-- A `wait for` clause closes only because it waited. -/
theorem waitForTurn_cases {target : String} :
    Keeps P s (r.waitForTurn target s) ∨ ClosesTo clauses s (r.waitForTurn target s) := by
  unfold waitForTurn
  split_ifs
  · exact .inr ⟨{ s with clauseIdx := s.clauseIdx + 1 }, rfl, rfl, .inl rfl⟩
  · exact .inl ⟨by simp, rfl, .inl rfl⟩
  · exact .inl waitPoll_keeps

/-- An outcome closes its clause only as a choice of `DONE`; a dispatch is of its own action. -/
theorem outcomeTurn_cases {clause goalText : String} {space : ActionSpace} {s' : RunState σ}
    {outcome : Except PolicyError PolicyOutcome} (hidx : s'.clauseIdx = s.clauseIdx)
    (hhistory : s'.history = s.history)
    (hP : ∀ d, outcome = .ok (.choice d) → d.kind.isControl = false →
      ∀ e : HistoryEntry, e.actionId = d.actionId → P e) :
    Keeps P s (r.outcomeTurn clauses keybindings clause goalText space s' outcome) ∨
      ClosesTo clauses s (r.outcomeTurn clauses keybindings clause goalText space s' outcome) ∧
        ∃ d, outcome = .ok (.choice d) ∧ d.kind = .done := by
  have hkept : Kept P s s' := ⟨hidx, .inl hhistory⟩
  rcases outcome with e | d | ⟨reason, o, t⟩
  · exact .inl trivial
  · have hdispatch (hc : d.kind.isControl = false) :
        Keeps P s (r.dispatchTurn keybindings clause goalText space d s') :=
      dispatchTurn_keeps hidx hhistory (hP d rfl hc)
    unfold outcomeTurn
    cases hk : d.kind <;> simp only [hk] at hdispatch ⊢
    case done =>
      refine .inr ⟨?_, d, rfl, hk⟩
      split_ifs with hlast
      · exact ⟨{ s' with clauseIdx := s'.clauseIdx + 1 }, congrArg (· + 1) hidx, hhistory,
          .inr ⟨rfl, hlast⟩⟩
      · exact ⟨{ s' with clauseIdx := s'.clauseIdx + 1 }, congrArg (· + 1) hidx, hhistory,
          .inl rfl⟩
    case blocked => exact .inl ⟨by simp, hkept⟩
    case wait =>
      split_ifs
      · exact .inl ⟨by simp, hkept⟩
      · exact .inl (reobserve_keeps fun _ _ _ => hkept)
    all_goals exact .inl (hdispatch rfl)
  · refine .inl ⟨?_, hkept⟩
    unfold abstainOutcome
    split_ifs <;> simp

/-- An `Act` clause closes only when the policy picks `DONE`; a dispatch is of an offered target. -/
theorem actTurn_cases (clauses : List String) (keybindings : List KeybindingInfo)
    (clause goalText : String) (hp : r.UsesInstinct inst) :
    Keeps (fun e => ':' ∈ e.actionId.toList) s
        (r.actTurn clauses keybindings clause goalText s) ∨
      ClosesTo clauses s (r.actTurn clauses keybindings clause goalText s) ∧
        ∃ d, InstinctPolicy.decide r.lex inst (r.space keybindings s) (.new goalText) s.history =
          .ok (.choice d) ∧ d.kind = .done := by
  rw [← hp s.session.world]
  refine outcomeTurn_cases rfl rfl fun d hd hc e he => ?_
  rw [hp] at hd
  obtain ⟨a, hget, hk, -⟩ := InstinctPolicy.decide_safe _ _ _ _ _ _ hd
  have hw := ActionSpace.wellFormed_of_get hget
  obtain ⟨t, ht⟩ := Option.isSome_iff_exists.mp (hw.target_isSome.trans (by rw [hk, hc]; rfl))
  rw [he, ← ActionSpace.id_of_get hget, hw.id_eq, ht]
  exact ActionId.colon_mem_of _ t

/-- The three things a pass can do: end the run after the last clause, leave the clause open, or
close it for its cause. -/
theorem turn_cases (clauses : List String) (keybindings : List KeybindingInfo)
    (hp : r.UsesInstinct inst) (htargeted : ∀ e ∈ s.history, ':' ∈ e.actionId.toList) :
    (clauses.length ≤ s.clauseIdx ∧ r.turn clauses keybindings s = .stop .done s) ∨
      Keeps (fun e => ':' ∈ e.actionId.toList) s (r.turn clauses keybindings s) ∨
      ClosesTo clauses s (r.turn clauses keybindings s) ∧
        r.cause inst clauses keybindings s ≠ .other := by
  unfold turn cause current
  cases hc : clauses[s.clauseIdx]? with
  | none => exact .inl ⟨List.getElem?_eq_none_iff.mp hc, rfl⟩
  | some c =>
    refine .inr ?_
    dsimp only [Option.bind_some]
    cases clauseMode r.lex (substitutePronouns c s.typed) with
    | none => exact .inl trivial
    | some mode =>
      obtain ⟨goalText, _ | target⟩ := mode
      · rcases actTurn_cases clauses keybindings (substitutePronouns c s.typed) goalText hp with
          h | ⟨h, d, hd, hk⟩
        · exact .inl h
        · refine .inr ⟨h, ?_⟩
          dsimp only
          rcases InstinctPolicy.decide_done htargeted hd hk with ⟨last, hlast, he⟩ | ha
          · have hl : r.lastCloses inst keybindings goalText s = true :=
              (Option.any_eq_true _ _).mpr ⟨last, hlast, he⟩
            simp [hl]
          · simp only [ha, if_true]
            split_ifs <;> simp
      · dsimp only
        exact waitForTurn_cases.imp id fun h => ⟨h, by simp⟩

/-- What the ledger of a run satisfies: it follows the history and the clauses, only targeted actions
are in the history, and every closing is accounted for. -/
structure Consistent (l : Ledger) (s : RunState σ) : Prop where
  owners_length : l.owners.length = s.history.length
  closings_length : l.closings.length = s.clauseIdx
  targeted : ∀ e ∈ s.history, ':' ∈ e.actionId.toList
  accounted : ∀ k closing, l.closings[k]? = some closing → l.Accounted s.history k closing

theorem accounted_extend {l l' : Ledger} {history history' : List HistoryEntry} {k : Nat}
    {closing : Closing} (h : l.Accounted history k closing) (ho : l.owners <+: l'.owners)
    (hh : history <+: history') : l'.Accounted history' k closing := by
  cases closing with
  | waited | arbitration => exact trivial
  | other => exact h
  | history j =>
    obtain ⟨howner, e, he, hs⟩ := h
    exact ⟨getElem?_extend ho howner, e, getElem?_extend hh he, hs⟩

variable {l : Ledger}

theorem Consistent.start {s : RunState σ} (hh : s.history = []) (hi : s.clauseIdx = 0) :
    Consistent {} s where
  owners_length := by simp [hh]
  closings_length := by simp [hi]
  targeted := by simp [hh]
  accounted := by simp

theorem Consistent.record_kept {cause : Closing} {s' : RunState σ} (h : Consistent l s)
    (hk : Kept (fun e => ':' ∈ e.actionId.toList) s s') : Consistent (l.record s cause s') s' := by
  obtain ⟨hidx, hhistory⟩ := hk
  have hclosings : (l.record s cause s').closings = l.closings := by simp [Ledger.record, hidx]
  have hprefix : s.history <+: s'.history := by
    rcases hhistory with hh | ⟨e, -, hh⟩
    · exact hh ▸ List.prefix_refl _
    · exact hh ▸ List.prefix_append _ _
  refine ⟨?_, by rw [hclosings, h.closings_length, hidx], ?_, fun k closing hc => ?_⟩
  · have := hprefix.length_le
    simp only [Ledger.record, List.length_append, List.length_replicate, h.owners_length]
    omega
  · rcases hhistory with hh | ⟨e, he, hh⟩ <;> rw [hh]
    · exact h.targeted
    · simpa [or_imp, forall_and] using ⟨h.targeted, he⟩
  · rw [hclosings] at hc
    exact accounted_extend (h.accounted k closing hc) (List.prefix_append _ _) hprefix

theorem Consistent.record_closed {cause : Closing} {s' : RunState σ} (h : Consistent l s)
    (hidx : s'.clauseIdx = s.clauseIdx + 1) (hhistory : s'.history = s.history)
    (hcause : l.Accounted s.history s.clauseIdx cause) : Consistent (l.record s cause s') s' := by
  have howners : (l.record s cause s').owners = l.owners := by simp [Ledger.record, hhistory]
  have hclosings : (l.record s cause s').closings = l.closings ++ [cause] := by
    simp [Ledger.record, hidx]
  refine ⟨by rw [howners, hhistory, h.owners_length], by simp [hclosings, h.closings_length, hidx],
    hhistory ▸ h.targeted, fun k closing hc => ?_⟩
  rw [hhistory]
  have hsame : l.owners <+: (l.record s cause s').owners := howners ▸ List.prefix_refl _
  rw [hclosings] at hc
  rcases Nat.lt_trichotomy k l.closings.length with hlt | heq | hgt
  · rw [List.getElem?_append_left hlt] at hc
    exact accounted_extend (h.accounted k closing hc) hsame (List.prefix_refl _)
  · subst heq
    obtain rfl : cause = closing := by simpa using hc
    rw [h.closings_length]
    exact accounted_extend hcause hsame (List.prefix_refl _)
  · rw [List.getElem?_eq_none (by simp; omega)] at hc
    cases hc

/-- A pass without stale evidence closes its clause for an accounted cause. -/
theorem Consistent.cause_accounted (h : Consistent l s)
    (hother : r.cause inst clauses keybindings s ≠ .other)
    (hown : r.staleEvidence inst clauses keybindings s l = false) :
    l.Accounted s.history s.clauseIdx (r.cause inst clauses keybindings s) := by
  unfold cause at hother ⊢
  unfold staleEvidence at hown
  rcases hcur : r.current clauses s with _ | ⟨goalText, _ | target⟩
  · simp [hcur] at hother
  · simp only [hcur] at hown hother ⊢
    by_cases hl : r.lastCloses inst keybindings goalText s = true
    · rw [if_pos hl]
      obtain ⟨last, hlast, he⟩ := (Option.any_eq_true _ _).mp hl
      simp only [hl, Bool.and_true, bne_eq_false_iff_eq] at hown
      rw [List.getLast?_eq_getElem?] at hlast hown
      simp only [entryCloses, Bool.and_eq_true] at he
      exact ⟨h.owners_length ▸ hown, last, hlast, he.1⟩
    · rw [if_neg hl] at hother ⊢
      split_ifs at hother ⊢
      · exact trivial
      · exact absurd rfl hother
  · exact trivial

/-- What the ledger says of the turn an audit ends in. -/
def TurnConsistent (clauses : List String) (l : Ledger) : Turn σ → Prop
  | .next s => Consistent l s
  | .stop outcome s => Consistent l s ∧ (outcome = .done → clauses.length ≤ s.clauseIdx)
  | .fail _ | .panic => True

/-- One pass keeps the ledger consistent. -/
theorem Consistent.turn (hp : r.UsesInstinct inst) (h : Consistent l s)
    (hown : r.staleEvidence inst clauses keybindings s l = false) :
    match r.turn clauses keybindings s with
    | .next s' => Consistent (l.record s (r.cause inst clauses keybindings s) s') s'
    | .stop outcome s' => Consistent (l.record s (r.cause inst clauses keybindings s) s') s' ∧
        (outcome = .done → clauses.length ≤ s'.clauseIdx)
    | .fail _ | .panic => True := by
  rcases turn_cases clauses keybindings hp h.targeted with
    ⟨hlast, ht⟩ | hkeeps | ⟨⟨s', hidx, hhistory, ht⟩, hother⟩
  · rw [ht]
    exact ⟨h.record_kept ⟨rfl, .inl rfl⟩, fun _ => hlast⟩
  · cases ht : r.turn clauses keybindings s with
    | next s' =>
      rw [ht] at hkeeps
      exact h.record_kept hkeeps
    | stop outcome s' =>
      rw [ht] at hkeeps
      exact ⟨h.record_kept hkeeps.2, fun hd => absurd hd hkeeps.1⟩
    | fail e => exact trivial
    | panic => exact trivial
  · have hclosed := h.record_closed hidx hhistory (h.cause_accounted hother hown)
    rcases ht with ht | ⟨ht, hlast⟩ <;> rw [ht]
    · exact hclosed
    · exact ⟨hclosed, fun _ => hlast⟩

/-- A run without stale evidence keeps the ledger consistent. -/
theorem Consistent.audit (hp : r.UsesInstinct inst) (fuel : Nat) (h : Consistent l s)
    (hown : ∀ n s' l', r.audit inst clauses keybindings n s l = (.next s', l') →
      r.staleEvidence inst clauses keybindings s' l' = false) :
    TurnConsistent clauses (r.audit inst clauses keybindings fuel s l).2
      (r.audit inst clauses keybindings fuel s l).1 := by
  induction fuel generalizing s l with
  | zero => exact h
  | succ fuel ih =>
    have hstep := h.turn hp (hown 0 s l rfl)
    have hunfold : ∀ n, r.audit inst clauses keybindings (n + 1) s l =
        if s.steps.length < r.caps.maxSteps then
          match r.turn clauses keybindings s with
          | .next s' => r.audit inst clauses keybindings n s'
              (l.record s (r.cause inst clauses keybindings s) s')
          | .stop outcome s' =>
            (.stop outcome s', l.record s (r.cause inst clauses keybindings s) s')
          | t => (t, l)
        else (.stop .capHit s, l) := fun n => rfl
    rw [hunfold]
    by_cases hcap : s.steps.length < r.caps.maxSteps
    · rw [if_pos hcap]
      cases ht : r.turn clauses keybindings s with
      | next s' =>
        rw [ht] at hstep
        refine ih hstep fun n s'' l'' hn => hown (n + 1) s'' l'' ?_
        rw [hunfold, if_pos hcap, ht]
        exact hn
      | stop outcome s' =>
        rw [ht] at hstep
        exact hstep
      | fail e => exact trivial
      | panic => exact trivial
    · rw [if_neg hcap]
      exact ⟨h, by simp⟩

/-- Where no pass of a run has stale evidence, every clause the history closed in any state reached
was closed by a verified entry of its own, and a run that ends done has for every clause a verified
dispatch of its own, a `DONE` the arbitration picked, or a wait that was over. -/
theorem clauses_accounted (hp : r.UsesInstinct inst) {goal : String} {session : Session σ}
    (hclauses : r.goalClauses goal = some clauses) (hstart : r.start session = .ok (keybindings, s))
    (hown : ∀ n s' l', r.audit inst clauses keybindings n s {} = (.next s', l') →
      r.staleEvidence inst clauses keybindings s' l' = false) (fuel : Nat) :
    (∀ s' l', r.audit inst clauses keybindings fuel s {} = (.next s', l') →
      ∀ k closing, l'.closings[k]? = some closing → l'.Accounted s'.history k closing) ∧
    ∀ result, r.run fuel goal session = .receipt result → result.outcomeKind = .done →
      ∃ s' l', r.audit inst clauses keybindings fuel s {} = (.stop .done s', l') ∧
        result = receipt goal clauses .done s' ∧
        ∀ k < clauses.length, ∃ closing, l'.closings[k]? = some closing ∧
          l'.Accounted s'.history k closing := by
  obtain ⟨hh, hi⟩ : s.history = [] ∧ s.clauseIdx = 0 := by
    obtain ⟨session', tree, rfl⟩ := start_fresh hstart
    exact ⟨rfl, rfl⟩
  have hrun := (Consistent.start hh hi).audit hp fuel hown
  refine ⟨fun s' l' ha => ?_, fun result hresult hdone => ?_⟩
  · rw [ha] at hrun
    exact hrun.accounted
  · unfold run at hresult
    rw [hclauses, hstart] at hresult
    dsimp only at hresult
    rw [← audit_fst inst fuel s {}] at hresult
    rcases ha : r.audit inst clauses keybindings fuel s {} with ⟨s' | ⟨outcome, s'⟩ | e | -, l'⟩ <;>
      rw [ha] at hresult hrun
    · cases hresult
    · cases hresult
      obtain rfl : outcome = .done := hdone
      refine ⟨s', l', rfl, rfl, fun k hk => ?_⟩
      have hlast := hrun.2 rfl
      rw [← hrun.1.closings_length] at hlast
      have hget := List.getElem?_eq_getElem (Nat.lt_of_lt_of_le hk hlast)
      exact ⟨_, hget, hrun.1.accounted k _ hget⟩
    · cases hresult
    · cases hresult

/-- Run the loop and check every pass for stale evidence. -/
def ownEvidence (r : Runner σ) (inst : Instinct) (clauses : List String)
    (keybindings : List KeybindingInfo) : Nat → RunState σ → Ledger → Bool
  | 0, _, _ => false
  | fuel + 1, s, l =>
    !r.staleEvidence inst clauses keybindings s l &&
      if s.steps.length < r.caps.maxSteps then
        match r.turn clauses keybindings s with
        | .next s' => ownEvidence r inst clauses keybindings fuel s'
            (l.record s (r.cause inst clauses keybindings s) s')
        | _ => true
      else true

theorem ownEvidence_sound {fuel : Nat}
    (h : ownEvidence r inst clauses keybindings fuel s l = true) (n : Nat) (s' : RunState σ)
    (l' : Ledger) (ha : r.audit inst clauses keybindings n s l = (.next s', l')) :
    r.staleEvidence inst clauses keybindings s' l' = false := by
  induction fuel generalizing s l n with
  | zero => cases h
  | succ fuel ih =>
    unfold ownEvidence at h
    simp only [Bool.and_eq_true, Bool.not_eq_true'] at h
    cases n with
    | zero =>
      cases ha
      exact h.1
    | succ n =>
      unfold audit at ha
      split_ifs at ha h with hcap
      · cases ht : r.turn clauses keybindings s with
        | next s'' =>
          rw [ht] at ha h
          exact ih h.2 n ha
        | stop outcome s'' =>
          rw [ht] at ha
          cases ha
        | fail e =>
          rw [ht] at ha
          cases ha
        | panic =>
          rw [ht] at ha
          cases ha
      · cases ha

end Runner

section Delete

/-- A window with a `Delete` button, gone once it was clicked, and a `Settings` button. -/
def deleteTree (deleted : Bool) : UiTree where
  app := "todo"
  platform := .headless
  ready := true
  rev := some (if deleted then 2 else 1)
  nodes := [.node { id := "w", role := Role.WINDOW, name := "App" }
    ((if deleted then [] else [.node { id := "del", role := Role.BUTTON, name := "Delete" } []]) ++
      [.node { id := "set", role := Role.BUTTON, name := "Settings" } []])]

/-- The runner against a host with this window; its state is whether the item is deleted. -/
def deleteRunner : Runner Bool where
  lex := .ascii
  rpc deleted
    | .snapshot _ _ _ => (.ok { Response.success "1" with
        tree := some (deleteTree deleted), rev := (deleteTree deleted).rev }, deleted)
    | .keybindings => (.ok (.success "1"), deleted)
    | .click target _ _ => (.ok (.success "1"), deleted || target = "del")
    | _ => (.error "unexpected", deleted)
  decide world space goal history :=
    (InstinctPolicy.decide .ascii .standard space goal history, world)
  invokeArgs world _ _ := (.error "no schema", world)
  decodeDiff _ := .error "no diff"
  decodeKeybindings _ := .error "no keybindings"

def deleteStart : RunState Bool where
  session := ⟨false, 2⟩
  tree := deleteTree false
  rev := some 1

/-- The receipt of a run that clicked `Delete` and nothing else. -/
def deleteReceipt (goal : String) (clauses : List String) : RunReceipt where
  goal
  clauses
  outcomeKind := .done
  outcome := "done"
  reason := none
  candidates := []
  steps := [⟨1, "click Delete", "CLICK", "CLICK:del", "Delete", 1000, "state-changed"⟩]
  finalRev := some 2
  calls := 4

theorem Runner.clauses_accounted_delete :
    ∃ s' l', deleteRunner.audit .standard ["click Delete"] [] 3 deleteStart {} =
      (.stop .done s', l') ∧ ∃ closing, l'.closings[0]? = some closing ∧
        l'.Accounted s'.history 0 closing := by
  have hown : ownEvidence deleteRunner .standard ["click Delete"] [] 3 deleteStart {} = true := by
    decide +kernel
  have hrun : deleteRunner.run 3 "click Delete" ⟨false, 0⟩ =
      .receipt (deleteReceipt "click Delete" ["click Delete"]) := by decide +kernel
  have hp : deleteRunner.UsesInstinct .standard := fun _ _ _ _ => rfl
  have hclauses : deleteRunner.goalClauses "click Delete" = some ["click Delete"] := by
    decide +kernel
  have hstart : deleteRunner.start ⟨false, 0⟩ = .ok ([], deleteStart) := rfl
  obtain ⟨s', l', ha, -, h⟩ :=
    (clauses_accounted hp hclauses hstart (ownEvidence_sound hown) 3).2 _ hrun rfl
  exact ⟨s', l', ha, h 0 (by decide)⟩

/-- Both clauses are closed by the entry of the first one, and nothing was clicked for the second. -/
theorem Runner.closed_by_stale_entry :
    deleteRunner.run 4 "click Delete then click Settings" ⟨false, 0⟩ =
      .receipt (deleteReceipt "click Delete then click Settings"
        ["click Delete", "click Settings"]) ∧
    (deleteRunner.audit .standard ["click Delete", "click Settings"] [] 4 deleteStart {}).2 =
      ⟨[0], [.history 0, .history 0]⟩ := by
  constructor <;> decide +kernel

end Delete

end GpuiAgent
