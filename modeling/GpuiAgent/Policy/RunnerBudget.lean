import GpuiAgent.Policy.Runner

namespace GpuiAgent

open Framework

/-- What a pass does outside the runner: it sleeps, or it sends an op that is dispatched or refused as
stale. -/
inductive Deed where
  | slept | dispatched | refused
  deriving DecidableEq

namespace Deed

/-- The refusals since the last dispatch. -/
def recent (log : List Deed) : Nat :=
  log.foldl (fun n deed => match deed with
    | .slept => n
    | .dispatched => 0
    | .refused => n + 1) 0

theorem recent_concat (log : List Deed) (deed : Deed) :
    recent (log ++ [deed]) = match deed with
      | .slept => recent log
      | .dispatched => 0
      | .refused => recent log + 1 := by
  rw [recent, List.foldl_append]
  rfl

/-- Without a dispatch in between, all refusals are recent. -/
theorem count_refused_le (pre mid : List Deed) (h : .dispatched ∉ mid) :
    mid.count .refused ≤ recent (pre ++ mid) := by
  induction mid using List.reverseRecOn with
  | nil => exact Nat.zero_le _
  | append_singleton mid deed ih =>
    rw [List.mem_append, not_or] at h
    have hmid := ih h.1
    rw [← List.append_assoc, recent_concat, List.count_append]
    cases deed with
    | slept => simpa using hmid
    | dispatched => exact absurd (List.mem_singleton_self _) h.2
    | refused => simpa using hmid

end Deed

/-- The counters of the loop that the caps bound, and the clause it is at. -/
structure Counters where
  steps : Nat
  stale : Nat
  waitedMs : Nat
  clauseIdx : Nat

def RunState.counters {σ : Type} (s : RunState σ) : Counters :=
  ⟨s.steps.length, s.stale, s.waitedMs, s.clauseIdx⟩

namespace Runner

variable {σ : Type} (r : Runner σ)

section Meter

variable (clauses : List String) (keybindings : List KeybindingInfo)

/-- The answer to the op of a choice, if it is sent. -/
def answerOf (clause goalText : String) (space : ActionSpace) (d : PolicyDecision)
    (s : RunState σ) : Option (Except String Response) :=
  match space.get d.actionId with
  | none => none
  | some action =>
    let (payload, world) := r.payloadFor goalText d action s
    match payload with
    | .error _ => none
    | .ok payload =>
      let (op, world) := opForDecision d action payload r.delivery clause keybindings r.invokeArgs
        world
      match op with
      | .error _ => none
      | .ok op => some (r.expectOk { s.session with world } op).1

def deedOfAnswer : Option (Except String Response) → Option Deed
  | some (.ok _) => some .dispatched
  | some (.error err) => if isStaleDispatchError err then some .refused else none
  | none => none

/-- A pass that would wait sleeps if the wait budget is not used up. -/
def deedOfWait (s : RunState σ) : Option Deed :=
  if r.caps.maxWaitMs ≤ s.waitedMs then none else some .slept

def deedOfOutcome (clause goalText : String) (space : ActionSpace) (s : RunState σ) :
    Except PolicyError PolicyOutcome → Option Deed
  | .ok (.choice d) =>
    match d.kind with
    | .done | .blocked => none
    | .wait => r.deedOfWait s
    | _ => deedOfAnswer (r.answerOf keybindings clause goalText space d s)
  | _ => none

/-- What the pass from `s` does. -/
def deed (s : RunState σ) : Option Deed :=
  match clauses[s.clauseIdx]? with
  | none => none
  | some c =>
    let clause := substitutePronouns c s.typed
    match clauseMode r.lex clause with
    | none => none
    | some (_, .waitFor target) => if onScreen s.tree target then none else r.deedOfWait s
    | some (goalText, .act) =>
      let space := r.space keybindings s
      let (outcome, world) := r.decide s.session.world space (.new goalText) s.history
      r.deedOfOutcome keybindings clause goalText space
        { s with session := { s.session with world } } outcome

/-- The loop with a log of its deeds. -/
def meter : Nat → RunState σ → List Deed → Turn σ × List Deed
  | 0, s, log => (.next s, log)
  | fuel + 1, s, log =>
    if s.steps.length < r.caps.maxSteps then
      let log := log ++ (r.deed clauses keybindings s).toList
      match r.turn clauses keybindings s with
      | .next s => meter fuel s log
      | t => (t, log)
    else (.stop .capHit s, log)

theorem meter_fst (fuel : Nat) : ∀ (s : RunState σ) (log : List Deed),
    (r.meter clauses keybindings fuel s log).1 = r.loop clauses keybindings fuel s := by
  induction fuel with
  | zero => exact fun _ _ => rfl
  | succ fuel ih =>
    intro s log
    unfold meter loop
    split_ifs
    · cases r.turn clauses keybindings s with
      | next s' => exact ih s' _
      | _ => rfl
    · rfl

end Meter

section Pass

variable {r} {clauses : List String} {keybindings : List KeybindingInfo} {s : RunState σ}

/-- The counters after a pass that goes on. -/
def after (r : Runner σ) (c : Counters) : Option Deed → Counters
  | some .slept => { c with waitedMs := wrappingAdd c.waitedMs r.waitPollMs }
  | some .dispatched => { c with steps := c.steps + 1, stale := 0 }
  | some .refused => { c with stale := (c.stale + 1) % 2 ^ 32 }
  | none => { c with clauseIdx := c.clauseIdx + 1 }

/-- What lets a pass go on. -/
def MayGoOn (r : Runner σ) (clauses : List String) (c : Counters) : Option Deed → Prop
  | some .slept | some .dispatched => True
  | some .refused => (c.stale + 1) % 2 ^ 32 ≤ r.caps.maxConsecutiveStale
  | none => c.clauseIdx < clauses.length

/-- A pass from counters `c` with this deed. -/
def Does (r : Runner σ) (clauses : List String) (c : Counters) (deed : Option Deed) :
    Turn σ → Prop
  | .next s => s.counters = after r c deed ∧ MayGoOn r clauses c deed
  | _ => True

theorem reobserve_does {c : Counters} {d : Option Deed} {k : RunState σ → Turn σ}
    (h : ∀ session tree rev, Does r clauses c d (k { s with session, tree, rev })) :
    Does r clauses c d (r.reobserve s k) := by
  unfold reobserve
  rcases r.observeSince s.session s.tree s.rev with ⟨e | ⟨changed, tree, rev⟩, session⟩
  · exact trivial
  · exact h _ _ _

theorem waitPoll_does : Does r clauses s.counters (some .slept) (r.waitPoll s) :=
  reobserve_does fun _ _ _ => ⟨rfl, trivial⟩

theorem staleTurn_does {space : ActionSpace} {d : PolicyDecision} {err : String} :
    Does r clauses s.counters (some .refused) (r.staleTurn space d err s) := by
  unfold staleTurn
  dsimp only
  split_ifs with hcap
  · exact trivial
  · exact reobserve_does fun _ _ _ => ⟨rfl, Nat.le_of_not_lt hcap⟩

theorem recordTurn_does {c : Counters} {clause : String} {d : PolicyDecision}
    {action : OfferedAction} {payload : Option String} {old : UiTree}
    (h : s.counters = { c with stale := 0 }) :
    Does r clauses c (some .dispatched) (r.recordTurn clause d action payload old s) := by
  have hrecorded : ∀ verification,
      (recorded clause d payload verification s).counters = after r c (some .dispatched) := by
    intro verification
    have hsteps : s.steps.length = c.steps := congrArg Counters.steps h
    have hstale : s.stale = 0 := congrArg Counters.stale h
    have hwaited : s.waitedMs = c.waitedMs := congrArg Counters.waitedMs h
    have hidx : s.clauseIdx = c.clauseIdx := congrArg Counters.clauseIdx h
    simp [recorded, RunState.counters, after, hsteps, hstale, hwaited, hidx]
  unfold recordTurn
  dsimp only
  split_ifs
  · exact trivial
  · exact ⟨hrecorded _, trivial⟩

theorem dispatchTurn_does {clause goalText : String} {space : ActionSpace} {d : PolicyDecision} :
    Does r clauses s.counters (deedOfAnswer (r.answerOf keybindings clause goalText space d s))
      (r.dispatchTurn keybindings clause goalText space d s) := by
  unfold dispatchTurn answerOf
  cases space.get d.actionId with
  | none => exact trivial
  | some action =>
    dsimp only
    rcases r.payloadFor goalText d action s with ⟨err | payload, world⟩
    · exact trivial
    dsimp only
    rcases opForDecision d action payload r.delivery clause keybindings r.invokeArgs world with
      ⟨e | op, world⟩
    · exact trivial
    dsimp only
    rcases r.expectOk { s.session with world } op with ⟨err | resp, session⟩
    · dsimp only [deedOfAnswer]
      split_ifs
      · exact @staleTurn_does σ r clauses { s with session } space d err
      · exact trivial
    · exact reobserve_does fun _ _ _ => recordTurn_does rfl

theorem wait_does (stop : RunOutcome) :
    Does r clauses s.counters (r.deedOfWait s)
      (if r.caps.maxWaitMs ≤ s.waitedMs then .stop stop s else r.waitPoll s) := by
  unfold deedOfWait
  split_ifs
  · exact trivial
  · exact waitPoll_does

theorem outcomeTurn_does {clause goalText : String} {space : ActionSpace}
    {outcome : Except PolicyError PolicyOutcome} (hidx : s.clauseIdx < clauses.length) :
    Does r clauses s.counters (r.deedOfOutcome keybindings clause goalText space s outcome)
      (r.outcomeTurn clauses keybindings clause goalText space s outcome) := by
  rcases outcome with e | d | ⟨reason, o, t⟩
  · exact trivial
  · have hdispatch := @dispatchTurn_does σ r clauses keybindings s clause goalText space d
    unfold outcomeTurn deedOfOutcome
    cases hk : d.kind <;> simp only [hk]
    case done =>
      split_ifs
      · exact trivial
      · exact ⟨rfl, hidx⟩
    case blocked => exact trivial
    case wait => exact wait_does _
    all_goals exact hdispatch
  · exact trivial

theorem waitForTurn_does {target : String} (hidx : s.clauseIdx < clauses.length) :
    Does r clauses s.counters (if onScreen s.tree target then none else r.deedOfWait s)
      (r.waitForTurn target s) := by
  unfold waitForTurn
  by_cases hscreen : onScreen s.tree target = true
  · rw [if_pos hscreen, if_pos hscreen]
    exact ⟨rfl, hidx⟩
  · rw [if_neg hscreen, if_neg hscreen]
    exact wait_does _

/-- A pass goes on by sleeping, by a dispatch, by a refusal, or by closing its clause. -/
theorem turn_does : Does r clauses s.counters (r.deed clauses keybindings s)
    (r.turn clauses keybindings s) := by
  unfold turn deed
  cases hc : clauses[s.clauseIdx]? with
  | none => exact trivial
  | some c =>
    have hidx : s.clauseIdx < clauses.length := (List.getElem?_eq_some_iff.mp hc).1
    dsimp only
    cases clauseMode r.lex (substitutePronouns c s.typed) with
    | none => exact trivial
    | some mode =>
      obtain ⟨goalText, _ | target⟩ := mode
      · have hact := @outcomeTurn_does σ r clauses keybindings
          { s with session := { s.session with
            world := (r.decide s.session.world (r.space keybindings s) (.new goalText) s.history).2 } }
          (substitutePronouns c s.typed) goalText (r.space keybindings s)
          (r.decide s.session.world (r.space keybindings s) (.new goalText) s.history).1 hidx
        exact hact
      · exact waitForTurn_does hidx

theorem deedOfAnswer_ne_slept (answer : Option (Except String Response)) :
    deedOfAnswer answer ≠ some .slept := by
  unfold deedOfAnswer
  rcases answer with _ | err | resp
  · simp
  · dsimp only
    split_ifs <;> simp
  · simp

theorem deedOfWait_slept (h : r.deedOfWait s = some .slept) : s.waitedMs < r.caps.maxWaitMs := by
  unfold deedOfWait at h
  split_ifs at h with hcap
  exact Nat.lt_of_not_le hcap

theorem deedOfOutcome_slept {clause goalText : String} {space : ActionSpace}
    {outcome : Except PolicyError PolicyOutcome}
    (h : r.deedOfOutcome keybindings clause goalText space s outcome = some .slept) :
    s.waitedMs < r.caps.maxWaitMs := by
  unfold deedOfOutcome at h
  rcases outcome with e | d | ⟨reason, o, t⟩
  · cases h
  · dsimp only at h
    cases hk : d.kind <;> simp only [hk] at h
    case done => cases h
    case blocked => cases h
    case wait => exact deedOfWait_slept h
    all_goals exact absurd h (deedOfAnswer_ne_slept _)
  · cases h

/-- The runner sleeps only before its wait budget is used up. -/
theorem deed_slept (h : r.deed clauses keybindings s = some .slept) :
    s.waitedMs < r.caps.maxWaitMs := by
  unfold deed at h
  cases hc : clauses[s.clauseIdx]? with
  | none => simp [hc] at h
  | some c =>
    rw [hc] at h
    dsimp only at h
    cases hm : clauseMode r.lex (substitutePronouns c s.typed) with
    | none => simp [hm] at h
    | some mode =>
      rw [hm] at h
      obtain ⟨goalText, _ | target⟩ := mode
      · have hslept := deedOfOutcome_slept h
        exact hslept
      · dsimp only at h
        split_ifs at h
        exact deedOfWait_slept h

end Pass

/-- The caps on what a run does. -/
structure WithinCaps (r : Runner σ) (log : List Deed) : Prop where
  dispatched : log.count .dispatched ≤ r.caps.maxSteps
  refused : ∀ pre mid post, log = pre ++ mid ++ post → .dispatched ∉ mid →
    mid.count .refused ≤ r.caps.maxConsecutiveStale + 1
  slept : log.count .slept * r.waitPollMs < r.caps.maxWaitMs + r.waitPollMs

/-- The counters' types hold every value the caps let them reach. -/
def CapsFit (caps : RunnerCaps) (waitPollMs : Nat) : Prop :=
  caps.maxConsecutiveStale + 1 < 2 ^ 32 ∧
    ∃ k, caps.maxWaitMs ≤ k * waitPollMs ∧ k * waitPollMs < 2 ^ 64

/-- How the counters keep a log that is within the caps so far. -/
structure Metered (r : Runner σ) (c : Counters) (log : List Deed) : Prop where
  steps : log.count .dispatched = c.steps
  steps_le : c.steps ≤ r.caps.maxSteps
  recent : Deed.recent log = c.stale
  stale_le : c.stale ≤ r.caps.maxConsecutiveStale
  recents : ∀ pre, pre <+: log → Deed.recent pre ≤ r.caps.maxConsecutiveStale + 1
  waited : log.count .slept * r.waitPollMs = c.waitedMs
  slept : log.count .slept * r.waitPollMs < r.caps.maxWaitMs + r.waitPollMs

section Metered

variable {r} {clauses : List String} {c : Counters} {log : List Deed} {deed : Option Deed}

theorem withinCaps_of_recents (dispatched : log.count .dispatched ≤ r.caps.maxSteps)
    (recents : ∀ pre, pre <+: log → Deed.recent pre ≤ r.caps.maxConsecutiveStale + 1)
    (slept : log.count .slept * r.waitPollMs < r.caps.maxWaitMs + r.waitPollMs) :
    WithinCaps r log where
  dispatched := dispatched
  refused pre mid post hlog hmid :=
    (Deed.count_refused_le pre mid hmid).trans (recents _ ⟨post, hlog.symm⟩)
  slept := slept

theorem Metered.withinCaps (h : Metered r c log) : WithinCaps r log :=
  withinCaps_of_recents (h.steps.trans_le h.steps_le) h.recents h.slept

theorem Metered.start : Metered r ⟨0, 0, 0, 0⟩ [] where
  steps := rfl
  steps_le := Nat.zero_le _
  recent := rfl
  stale_le := Nat.zero_le _
  recents pre hpre := by
    rw [List.prefix_nil.mp hpre]
    exact Nat.zero_le _
  waited := Nat.zero_mul _
  slept := by
    have := r.waitPollMs_pos
    simp
    omega

/-- One more refusal than the cap is where the run stops. -/
theorem Metered.recents_pass (h : Metered r c log) (pre : List Deed)
    (hpre : pre <+: log ++ deed.toList) :
    Deed.recent pre ≤ r.caps.maxConsecutiveStale + 1 := by
  cases deed with
  | none =>
    rw [Option.toList_none, List.append_nil] at hpre
    exact h.recents pre hpre
  | some d =>
    rcases List.prefix_concat_iff.mp hpre with rfl | hpre
    · have hrecent := h.recent
      have hstale := h.stale_le
      rw [Deed.recent_concat]
      cases d <;> dsimp only <;> omega
    · exact h.recents pre hpre

theorem Metered.slept_pass (h : Metered r c log)
    (hslept : deed = some .slept → c.waitedMs < r.caps.maxWaitMs) :
    (log ++ deed.toList).count .slept * r.waitPollMs < r.caps.maxWaitMs + r.waitPollMs := by
  rw [List.count_append]
  rcases deed with _ | _ | _ | _
  · exact h.slept
  · have hwaited := h.waited
    have hlt := hslept rfl
    rw [Option.toList_some, List.count_singleton_self, Nat.add_mul, Nat.one_mul]
    omega
  · exact h.slept
  · exact h.slept

/-- The log of a pass is within the caps, whether the run goes on or not. -/
theorem Metered.pass (h : Metered r c log) (hcap : c.steps < r.caps.maxSteps)
    (hslept : deed = some .slept → c.waitedMs < r.caps.maxWaitMs) :
    WithinCaps r (log ++ deed.toList) := by
  refine withinCaps_of_recents ?_ h.recents_pass (h.slept_pass hslept)
  have hsteps := h.steps
  have hone : deed.toList.count .dispatched ≤ 1 :=
    (List.count_le_length).trans (by cases deed <;> simp)
  rw [List.count_append]
  omega

/-- A sleep within the budget does not wrap the time waited. -/
theorem Metered.waited_add (h : Metered r c log) (hfit : CapsFit r.caps r.waitPollMs)
    (hlt : c.waitedMs < r.caps.maxWaitMs) :
    wrappingAdd c.waitedMs r.waitPollMs = c.waitedMs + r.waitPollMs := by
  obtain ⟨-, k, hk, hfits⟩ := hfit
  refine wrappingAdd_eq ?_
  have hwaited := h.waited
  have hcount : log.count .slept < k := by
    refine Nat.lt_of_mul_lt_mul_right (a := r.waitPollMs) ?_
    omega
  have hmul := Nat.mul_le_mul_right r.waitPollMs hcount
  rw [Nat.succ_mul] at hmul
  omega

/-- A refusal within the cap does not wrap the count of refusals. -/
theorem Metered.stale_add (h : Metered r c log) (hfit : CapsFit r.caps r.waitPollMs) :
    (c.stale + 1) % 2 ^ 32 = c.stale + 1 := by
  have hstale := h.stale_le
  have hlt := hfit.1
  exact Nat.mod_eq_of_lt (by omega)

/-- A pass that goes on keeps the counters, as long as they do not wrap. -/
theorem Metered.next (h : Metered r c log) (hfit : CapsFit r.caps r.waitPollMs)
    (hcap : c.steps < r.caps.maxSteps)
    (hslept : deed = some .slept → c.waitedMs < r.caps.maxWaitMs)
    (hgoes : MayGoOn r clauses c deed) : Metered r (after r c deed) (log ++ deed.toList) := by
  have hrecents := @Metered.recents_pass σ r c log deed h
  have hslept_pass := h.slept_pass hslept
  rcases deed with _ | _ | _ | _
  · rw [Option.toList_none, List.append_nil]
    exact ⟨h.steps, h.steps_le, h.recent, h.stale_le, h.recents, h.waited, h.slept⟩
  · have hadd := h.waited_add hfit (hslept rfl)
    refine ⟨?_, h.steps_le, ?_, h.stale_le, hrecents, ?_, hslept_pass⟩
    · simpa [after, List.count_append] using h.steps
    · rw [Option.toList_some, Deed.recent_concat]
      exact h.recent
    · simp only [after]
      rw [hadd, Option.toList_some, List.count_append, List.count_singleton_self, Nat.add_mul,
        Nat.one_mul, h.waited]
  · refine ⟨?_, hcap, ?_, Nat.zero_le _, hrecents, ?_, hslept_pass⟩
    · simpa [after, List.count_append] using h.steps
    · rw [Option.toList_some, Deed.recent_concat]
      rfl
    · simpa [after, List.count_append] using h.waited
  · have hadd := h.stale_add hfit
    refine ⟨?_, h.steps_le, ?_, hgoes, hrecents, ?_, hslept_pass⟩
    · simpa [after, List.count_append] using h.steps
    · simp only [after]
      rw [hadd, Option.toList_some, Deed.recent_concat, h.recent]
    · simpa [after, List.count_append] using h.waited

/-- How many more passes a run can go on for. -/
def measure (r : Runner σ) (clauses : List String) (c : Counters) : Nat :=
  (r.caps.maxSteps - c.steps) * (r.caps.maxConsecutiveStale + 2) +
    (r.caps.maxConsecutiveStale + 1 - c.stale) + (r.caps.maxWaitMs + r.waitPollMs - c.waitedMs) +
      (clauses.length - c.clauseIdx)

theorem Metered.measure_lt (h : Metered r c log) (hfit : CapsFit r.caps r.waitPollMs)
    (hcap : c.steps < r.caps.maxSteps)
    (hslept : deed = some .slept → c.waitedMs < r.caps.maxWaitMs)
    (hgoes : MayGoOn r clauses c deed) :
    measure r clauses (after r c deed) < measure r clauses c := by
  have hpos := r.waitPollMs_pos
  rcases deed with _ | _ | _ | _
  · have hidx : c.clauseIdx < clauses.length := hgoes
    simp only [measure, after]
    omega
  · have hlt := hslept rfl
    simp only [measure, after]
    rw [h.waited_add hfit hlt]
    omega
  · obtain ⟨n, hn⟩ : ∃ n, r.caps.maxSteps - c.steps = n + 1 :=
      ⟨r.caps.maxSteps - c.steps - 1, by omega⟩
    have hn' : r.caps.maxSteps - (c.steps + 1) = n := by omega
    simp only [measure, after]
    rw [hn, hn', Nat.succ_mul]
    omega
  · have hadd := h.stale_add hfit
    have hstale : (c.stale + 1) % 2 ^ 32 ≤ r.caps.maxConsecutiveStale := hgoes
    simp only [measure, after]
    rw [hadd] at hstale ⊢
    omega

end Metered

section Run

variable {r} {clauses : List String} {keybindings : List KeybindingInfo}

/-- The run lemma of the caps: by induction on the passes, whatever ends them. -/
theorem meter_withinCaps (hfit : r.caps.maxSteps = 0 ∨ CapsFit r.caps r.waitPollMs) (fuel : Nat) :
    ∀ {s : RunState σ} {log : List Deed}, Metered r s.counters log →
      WithinCaps r (r.meter clauses keybindings fuel s log).2 := by
  induction fuel with
  | zero => exact fun h => h.withinCaps
  | succ fuel ih =>
    intro s log h
    unfold meter
    split_ifs with hcap
    · have hslept := @deed_slept σ r clauses keybindings s
      have hpass := h.pass hcap hslept
      have hdoes := @turn_does σ r clauses keybindings s
      dsimp only
      cases ht : r.turn clauses keybindings s with
      | next s' =>
        rw [ht] at hdoes
        have hnext := h.next (hfit.resolve_left (by omega)) hcap hslept hdoes.2
        rw [← hdoes.1] at hnext
        exact ih hnext
      | stop outcome s' => exact hpass
      | fail e => exact hpass
      | panic => exact hpass
    · exact h.withinCaps

/-- With enough fuel the loop ends. -/
theorem loop_stops (hfit : r.caps.maxSteps = 0 ∨ CapsFit r.caps r.waitPollMs) (fuel : Nat) :
    ∀ {s : RunState σ} {log : List Deed}, Metered r s.counters log →
      measure r clauses s.counters < fuel → ∀ s', r.loop clauses keybindings fuel s ≠ .next s' := by
  induction fuel with
  | zero => exact fun _ hlt => absurd hlt (Nat.not_lt_zero _)
  | succ fuel ih =>
    intro s log h hlt
    unfold loop
    split_ifs with hcap
    · have hslept := @deed_slept σ r clauses keybindings s
      have hdoes := @turn_does σ r clauses keybindings s
      cases ht : r.turn clauses keybindings s with
      | next s' =>
        rw [ht] at hdoes
        have hfit := hfit.resolve_left (by omega)
        have hnext := h.next hfit hcap hslept hdoes.2
        have hless := h.measure_lt hfit hcap hslept hdoes.2
        rw [← hdoes.1] at hnext hless
        exact ih hnext (by omega)
      | stop outcome s' => simp
      | fail e => simp
      | panic => simp
    · simp

end Run

/-- What a run of at most `fuel` passes does. -/
def deeds (fuel : Nat) (goal : String) (session : Session σ) : List Deed :=
  match r.goalClauses goal, r.start session with
  | some clauses, .ok (keybindings, s) => (r.meter clauses keybindings fuel s []).2
  | _, _ => []

/-- A run ends, and whatever it does is within the caps. -/
def KeepsBudgets (goal : String) (session : Session σ) : Prop :=
  (∃ fuel, r.run fuel goal session ≠ .running) ∧
    ∀ fuel, WithinCaps r (r.deeds fuel goal session)

theorem keepsBudgets_of_capsFit (hfit : r.caps.maxSteps = 0 ∨ CapsFit r.caps r.waitPollMs)
    (goal : String) (session : Session σ) : r.KeepsBudgets goal session := by
  cases hclauses : r.goalClauses goal with
  | none =>
    refine ⟨⟨0, by simp [run, hclauses]⟩, fun fuel => ?_⟩
    rw [deeds, hclauses]
    exact Metered.start.withinCaps
  | some clauses =>
    cases hstart : r.start session with
    | error e =>
      refine ⟨⟨0, by simp [run, hclauses, hstart]⟩, fun fuel => ?_⟩
      rw [deeds, hclauses, hstart]
      exact Metered.start.withinCaps
    | ok started =>
      obtain ⟨keybindings, s⟩ := started
      have hmetered : Metered r s.counters [] := by
        obtain ⟨session', tree, rfl⟩ := start_fresh hstart
        exact Metered.start
      refine ⟨⟨measure r clauses s.counters + 1, ?_⟩, fun fuel => ?_⟩
      · have hstops := @loop_stops σ r clauses keybindings hfit (measure r clauses s.counters + 1) s []
          hmetered (Nat.lt_succ_self _)
        rw [run, hclauses, hstart]
        dsimp only
        cases hl : r.loop clauses keybindings (measure r clauses s.counters + 1) s with
        | next s' => exact absurd hl (hstops s')
        | stop outcome s' => simp
        | fail e => simp
        | panic => simp
      · rw [deeds, hclauses, hstart]
        exact meter_withinCaps hfit fuel hmetered

section Stubborn

/-- A window without nodes. -/
def blankTree : UiTree where
  app := "blank"
  platform := .headless
  ready := true
  nodes := []
  rev := none

/-- A policy that makes one choice whatever it sees, against a host that refuses every op as stale. -/
def stubborn (caps : RunnerCaps) (waitPollMs : Nat) (waitPollMs_pos : 0 < waitPollMs)
    (d : PolicyDecision) : Runner Unit where
  lex := .ascii
  rpc _
    | .snapshot _ _ _ => (.ok { Response.success "1" with tree := some blankTree }, ())
    | .keybindings => (.ok (.success "1"), ())
    | _ => (.error STALE_TARGET, ())
  decide _ _ _ _ := (.ok (.choice d), ())
  invokeArgs _ _ _ := (.ok .null, ())
  decodeDiff _ := .error "no diff"
  decodeKeybindings _ := .error "no keybindings"
  invokes := [⟨"go", "", false⟩]
  caps := caps
  waitPollMs := waitPollMs
  waitPollMs_pos := waitPollMs_pos

/-- Nothing has happened but sleeps and refusals. -/
structure Stuck (s : RunState Unit) : Prop where
  tree : s.tree = blankTree
  rev : s.rev = none
  typed : s.typed = []
  steps : s.steps = []
  clauseIdx : s.clauseIdx = 0

variable {caps : RunnerCaps} {waitPollMs : Nat} {waitPollMs_pos : 0 < waitPollMs}
  {d : PolicyDecision} {s : RunState Unit}

theorem stubborn_goalClauses :
    (stubborn caps waitPollMs waitPollMs_pos d).goalClauses "x" = some ["x"] := by
  have h : ((splitSequentialClauses "x").mapM (splitWait .ascii)).map List.flatten = some ["x"] := by
    decide +kernel
  exact h

theorem stubborn_start : (stubborn caps waitPollMs waitPollMs_pos d).start ⟨(), 0⟩ =
    .ok ([], { session := ⟨(), 2⟩, tree := blankTree, rev := none }) := rfl

theorem Stuck.reobserve (h : Stuck s) : ∃ s', Stuck s' ∧
    (stubborn caps waitPollMs waitPollMs_pos d).reobserve s .next = .next s' ∧
      s'.stale = s.stale ∧ s'.waitedMs = s.waitedMs := by
  refine ⟨{ s with session := ⟨(), s.session.calls + 1⟩, tree := blankTree, rev := none },
    ⟨rfl, rfl, h.typed, h.steps, h.clauseIdx⟩, ?_, rfl, rfl⟩
  unfold Runner.reobserve observeSince
  rw [h.rev]
  rfl

theorem Stuck.turn_eq (h : Stuck s) : (stubborn caps waitPollMs waitPollMs_pos d).turn ["x"] [] s =
    (stubborn caps waitPollMs waitPollMs_pos d).outcomeTurn ["x"] [] "x" "x"
      ((stubborn caps waitPollMs waitPollMs_pos d).space [] s) s (.ok (.choice d)) ∧
    (stubborn caps waitPollMs waitPollMs_pos d).deed ["x"] [] s =
      (stubborn caps waitPollMs waitPollMs_pos d).deedOfOutcome [] "x" "x"
        ((stubborn caps waitPollMs waitPollMs_pos d).space [] s) s (.ok (.choice d)) := by
  have hmode : clauseMode .ascii (substitutePronouns "x" []) = some ("x", .act) := by
    decide +kernel
  have hclause : ["x"][s.clauseIdx]? = some "x" := by
    rw [h.clauseIdx]
    rfl
  rw [← h.typed] at hmode
  have hsub : substitutePronouns "x" s.typed = "x" := by
    rw [h.typed]
    rfl
  have hlex : (stubborn caps waitPollMs waitPollMs_pos d).lex = .ascii := rfl
  unfold turn deed
  rw [hclause]
  dsimp only
  rw [hlex, hmode]
  dsimp only
  rw [hsub]
  exact ⟨rfl, rfl⟩

/-- Always invoke `go`. -/
def invokeGo : PolicyDecision := ⟨"INVOKE:go", .invoke, "go", 1000, [], []⟩

/-- Always `WAIT`. -/
def alwaysWait : PolicyDecision := ⟨"WAIT", .wait, "WAIT", 1000, [], []⟩

/-- A cap that a `u32` cannot exceed never stops the refusals. -/
theorem Stuck.turn_refused (h : Stuck s) (hstale : 2 ^ 32 ≤ caps.maxConsecutiveStale + 1) :
    ∃ s', Stuck s' ∧
      (stubborn caps waitPollMs waitPollMs_pos invokeGo).turn ["x"] [] s = .next s' := by
  have hget : (ActionSpace.fromTree .ascii blankTree [] [⟨"go", "", false⟩]).get "INVOKE:go" =
      some (invokeAction ⟨"go", "", false⟩) := by decide +kernel
  have hspace : ((stubborn caps waitPollMs waitPollMs_pos invokeGo).space [] s).get "INVOKE:go" =
      some (invokeAction ⟨"go", "", false⟩) := by
    rw [← hget, ← h.tree]
    rfl
  have hanswer : (stubborn caps waitPollMs waitPollMs_pos invokeGo).dispatchTurn [] "x" "x"
      ((stubborn caps waitPollMs waitPollMs_pos invokeGo).space [] s) invokeGo s =
        (stubborn caps waitPollMs waitPollMs_pos invokeGo).staleTurn
          ((stubborn caps waitPollMs waitPollMs_pos invokeGo).space [] s) invokeGo STALE_TARGET
          { s with session := ⟨(), s.session.calls + 1⟩ } := by
    unfold dispatchTurn
    rw [show invokeGo.actionId = "INVOKE:go" from rfl, hspace]
    rfl
  have hcap : ¬caps.maxConsecutiveStale < (s.stale + 1) % 2 ^ 32 := by
    have := Nat.mod_lt (s.stale + 1) (show 0 < 2 ^ 32 by decide)
    omega
  have hstuck : Stuck { s with
      session := ⟨(), s.session.calls + 1⟩, stale := (s.stale + 1) % 2 ^ 32 } :=
    ⟨h.tree, h.rev, h.typed, h.steps, h.clauseIdx⟩
  obtain ⟨s', hs', hnext, -⟩ := @Stuck.reobserve caps waitPollMs waitPollMs_pos invokeGo _ hstuck
  refine ⟨s', hs', ?_⟩
  rw [h.turn_eq.1]
  refine Eq.trans ?_ hnext
  refine hanswer.trans ?_
  unfold staleTurn
  exact if_neg hcap

theorem stubborn_runs_on (hsteps : 0 < caps.maxSteps)
    (hstale : 2 ^ 32 ≤ caps.maxConsecutiveStale + 1) (fuel : Nat) : ∀ {s : RunState Unit},
      Stuck s → ∃ s',
        (stubborn caps waitPollMs waitPollMs_pos invokeGo).loop ["x"] [] fuel s = .next s' := by
  induction fuel with
  | zero => exact fun {s} _ => ⟨s, rfl⟩
  | succ fuel ih =>
    intro s h
    have hcap : s.steps.length < (stubborn caps waitPollMs waitPollMs_pos invokeGo).caps.maxSteps := by
      rw [h.steps]
      exact hsteps
    obtain ⟨s', hs', ht⟩ := @Stuck.turn_refused caps waitPollMs waitPollMs_pos s h hstale
    rw [loop, if_pos hcap, ht]
    exact ih hs'

theorem Stuck.turn_waits (h : Stuck s) (hwait : s.waitedMs < caps.maxWaitMs) :
    ∃ s', Stuck s' ∧ s'.waitedMs = wrappingAdd s.waitedMs waitPollMs ∧
      (stubborn caps waitPollMs waitPollMs_pos alwaysWait).turn ["x"] [] s = .next s' ∧
      (stubborn caps waitPollMs waitPollMs_pos alwaysWait).deed ["x"] [] s = some .slept := by
  have hstuck : Stuck { s with waitedMs := wrappingAdd s.waitedMs waitPollMs } :=
    ⟨h.tree, h.rev, h.typed, h.steps, h.clauseIdx⟩
  obtain ⟨s', hs', hnext, -, hwaited⟩ :=
    @Stuck.reobserve caps waitPollMs waitPollMs_pos alwaysWait _ hstuck
  refine ⟨s', hs', hwaited, ?_, ?_⟩
  · rw [h.turn_eq.1]
    refine Eq.trans ?_ hnext
    exact if_neg (Nat.not_le.mpr hwait)
  · rw [h.turn_eq.2]
    exact if_neg (Nat.not_le.mpr hwait)

/-- As long as the wrapped time waited is below the cap, every pass sleeps. -/
theorem stubborn_sleeps (hsteps : 0 < caps.maxSteps) (fuel : Nat) :
    ∀ {s : RunState Unit} {log : List Deed}, Stuck s → s.waitedMs < 2 ^ 64 →
      (∀ j < fuel, (s.waitedMs + j * waitPollMs) % 2 ^ 64 < caps.maxWaitMs) →
      ((stubborn caps waitPollMs waitPollMs_pos alwaysWait).meter ["x"] [] fuel s log).2 =
        log ++ List.replicate fuel .slept := by
  induction fuel with
  | zero => exact fun _ _ _ => (List.append_nil _).symm
  | succ fuel ih =>
    intro s log h hlt hwait
    have hcap : s.steps.length <
        (stubborn caps waitPollMs waitPollMs_pos alwaysWait).caps.maxSteps := by
      rw [h.steps]
      exact hsteps
    have hfirst := hwait 0 (Nat.succ_pos _)
    rw [Nat.zero_mul, Nat.add_zero, Nat.mod_eq_of_lt hlt] at hfirst
    obtain ⟨s', hs', hwaited, ht, hd⟩ :=
      @Stuck.turn_waits caps waitPollMs waitPollMs_pos s h hfirst
    rw [meter, if_pos hcap, ht, hd]
    have hlater : ∀ j < fuel, (s'.waitedMs + j * waitPollMs) % 2 ^ 64 < caps.maxWaitMs := by
      intro j hj
      have hwait := hwait (j + 1) (Nat.succ_lt_succ hj)
      rw [Nat.succ_mul, Nat.add_comm (j * waitPollMs)] at hwait
      rwa [hwaited, wrappingAdd, Nat.mod_add_mod, Nat.add_assoc]
    have hlt' : s'.waitedMs < 2 ^ 64 := by
      rw [hwaited]
      exact Nat.mod_lt _ (by decide)
    have hrest := @ih s' (log ++ [.slept]) hs' hlt' hlater
    rw [List.append_assoc] at hrest
    exact hrest

theorem stubborn_not_stopped (hsteps : 0 < caps.maxSteps)
    (hstale : 2 ^ 32 ≤ caps.maxConsecutiveStale + 1) :
    ¬(stubborn caps waitPollMs waitPollMs_pos invokeGo).KeepsBudgets "x" ⟨(), 0⟩ := by
  rintro ⟨⟨fuel, hfuel⟩, -⟩
  obtain ⟨s', hl⟩ := @stubborn_runs_on caps waitPollMs waitPollMs_pos hsteps hstale fuel _
    (⟨rfl, rfl, rfl, rfl, rfl⟩ : Stuck { session := ⟨(), 2⟩, tree := blankTree, rev := none })
  apply hfuel
  rw [run, stubborn_goalClauses, stubborn_start]
  dsimp only
  rw [hl]

theorem stubborn_oversleeps (hsteps : 0 < caps.maxSteps) (hwait : caps.maxWaitMs < 2 ^ 64)
    (hpoll : waitPollMs < 2 ^ 64) (hfit : ¬∃ k, caps.maxWaitMs ≤ k * waitPollMs ∧
      k * waitPollMs < 2 ^ 64) :
    ¬(stubborn caps waitPollMs waitPollMs_pos alwaysWait).KeepsBudgets "x" ⟨(), 0⟩ := by
  rintro ⟨-, hwithin⟩
  have hex : ∃ k, caps.maxWaitMs ≤ k * waitPollMs :=
    ⟨caps.maxWaitMs, Nat.le_mul_of_pos_right _ waitPollMs_pos⟩
  -- the first multiple of the poll that uses the budget up does not fit
  have hlast := Nat.find_spec hex
  have hbefore := fun j => @Nat.find_min _ _ hex j
  generalize Nat.find hex = k at hlast hbefore
  have hover : 2 ^ 64 ≤ k * waitPollMs := by
    by_contra hlt
    exact hfit ⟨k, hlast, Nat.lt_of_not_le hlt⟩
  have hsleeps : ∀ j < k + 1, (0 + j * waitPollMs) % 2 ^ 64 < caps.maxWaitMs := by
    intro j hj
    rw [Nat.zero_add]
    rcases Nat.lt_succ_iff_lt_or_eq.mp hj with hj | rfl
    · have hlt := Nat.lt_of_not_le (hbefore j hj)
      rwa [Nat.mod_eq_of_lt (hlt.trans hwait)]
    · obtain ⟨m, rfl⟩ : ∃ m, j = m + 1 := ⟨j - 1, by
        rcases Nat.eq_zero_or_pos j with rfl | hpos
        · simp at hover
        · omega⟩
      have hlt := Nat.lt_of_not_le (hbefore m (Nat.lt_succ_self m))
      rw [Nat.succ_mul] at hover ⊢
      rw [Nat.mod_eq_sub_mod hover, Nat.mod_eq_of_lt (by omega)]
      omega
  have hlog := @stubborn_sleeps caps waitPollMs waitPollMs_pos hsteps (k + 1) _ []
    (⟨rfl, rfl, rfl, rfl, rfl⟩ : Stuck { session := ⟨(), 2⟩, tree := blankTree, rev := none })
    (show 0 < 2 ^ 64 by decide) hsleeps
  have hslept := (hwithin (k + 1)).slept
  rw [deeds, stubborn_goalClauses, stubborn_start] at hslept
  dsimp only at hslept
  rw [hlog, List.nil_append, List.count_replicate_self, Nat.succ_mul] at hslept
  have hlt : k * waitPollMs + waitPollMs < caps.maxWaitMs + waitPollMs := hslept
  omega

end Stubborn

/-- A runner keeps its budgets, whatever the policy, the host and the goal, exactly when its counters
cannot wrap before a cap stops it. The bounds are those of the caps' types. -/
theorem keepsBudgets_iff (caps : RunnerCaps) (waitPollMs : Nat) (waitPollMs_pos : 0 < waitPollMs)
    (hwait : caps.maxWaitMs < 2 ^ 64) (hpoll : waitPollMs < 2 ^ 64) :
    (∀ (σ : Type) (r : Runner σ) (goal : String) (session : Session σ), r.caps = caps →
      r.waitPollMs = waitPollMs → r.KeepsBudgets goal session) ↔
    caps.maxSteps = 0 ∨ CapsFit caps waitPollMs := by
  constructor
  · intro h
    by_contra hfit
    rw [not_or] at hfit
    obtain ⟨hsteps, hfit⟩ := hfit
    have hsteps := Nat.pos_of_ne_zero hsteps
    apply hfit
    constructor
    · by_contra hstale
      exact @stubborn_not_stopped caps waitPollMs waitPollMs_pos hsteps (Nat.le_of_not_lt hstale)
        (h _ _ _ _ rfl rfl)
    · by_contra hover
      exact @stubborn_oversleeps caps waitPollMs waitPollMs_pos hsteps hwait hpoll hover
        (h _ _ _ _ rfl rfl)
  · rintro hfit σ r goal session rfl rfl
    exact r.keepsBudgets_of_capsFit hfit goal session

/-- The defaults fit. -/
theorem keepsBudgets_iff_default :
    ((∀ (σ : Type) (r : Runner σ) (goal : String) (session : Session σ), r.caps = {} →
      r.waitPollMs = WAIT_POLL_MS → r.KeepsBudgets goal session) ↔
    ({} : RunnerCaps).maxSteps = 0 ∨ CapsFit {} WAIT_POLL_MS) ∧ CapsFit {} WAIT_POLL_MS :=
  ⟨keepsBudgets_iff {} WAIT_POLL_MS (by decide) (by decide) (by decide),
    by decide, 120, by decide, by decide⟩

/-- With the largest cap the refusals of a host never stop the run. -/
theorem budgets_overrun : ¬∀ (σ : Type) (r : Runner σ) (goal : String) (session : Session σ),
    r.caps.maxSteps < 2 ^ 32 → r.caps.maxConsecutiveStale < 2 ^ 32 → r.caps.maxWaitMs < 2 ^ 64 →
      r.waitPollMs < 2 ^ 64 → r.KeepsBudgets goal session := by
  intro h
  exact @stubborn_not_stopped { maxConsecutiveStale := 2 ^ 32 - 1 } WAIT_POLL_MS (by decide)
    (by decide) (by decide) (h Unit _ "x" ⟨(), 0⟩ (by decide) (by decide) (by decide) (by decide))

end Runner

end GpuiAgent
