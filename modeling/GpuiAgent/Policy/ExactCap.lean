import GpuiAgent.Policy.Evidence

namespace GpuiAgent

open Framework

/-- Raise a score up to a ceiling; a bonus of nothing leaves it as it is, even above the ceiling. -/
def raise (ceiling score bonus : Nat) : Nat :=
  if bonus = 0 then score else min ceiling (score + bonus)

theorem raise_raise (ceiling score a b : Nat) :
    raise ceiling (raise ceiling score a) b = raise ceiling score (a + b) := by
  unfold raise
  split_ifs <;> omega

namespace Confidence

theorem get_saturating (n : Nat) : (saturating n).get = min n 1000 := rfl

theorem get_saturatingAdd (a b : Confidence) : (a.saturatingAdd b).get = min (a.get + b.get) 1000 :=
  rfl

theorem eq_max_iff (a : Confidence) : a = MAX ↔ a.get = 1000 := by
  constructor
  · rintro rfl
    rfl
  · intro h
    cases a
    cases h
    rfl

end Confidence

section Score

variable (lex : Lexicon) (goal : String) (target : EvidenceTarget) (ctx : GoalEvidence)

/-- The label is the goal, its target phrase, its words, or a checkbox that covers the object of a
toggle. -/
def isExact : Bool :=
  exactLabelCtx lex goal target ctx || tokensEqual lex goal target.label ||
    ((ctx.toggleIntent && target.role = some "checkbox") &&
      objectCovered lex goal target.label ctx)

def isPayloadTarget : Prop := target.kind = .typeText ∧ ctx.payloadTarget = some target.id

instance : Decidable (isPayloadTarget target ctx) := inferInstanceAs (Decidable (_ ∧ _))

/-- The label evidence of the goal and of its literals. -/
def labelScore : Nat :=
  ctx.literals.foldl
    (fun best literal =>
      max best (min (scoreActionTextCtx lex literal target ctx).get NON_EXACT_CAP))
    (scoreActionBestCtx lex goal target ctx).get

def verbBonus : Nat :=
  if !ctx.unplacedLiteral && !ctx.verb.isEmpty && verbMatches lex ctx.verb target.label then
    if objectCovered lex goal target.label ctx then 650 else 500
  else 0

def navBonus : Nat :=
  if ctx.navLocatives.any fun w => eqFold lex w target.label then 600 else 0

def checkboxBonus : Nat :=
  if ctx.toggleIntent && target.role = some "checkbox" then
    (if ctx.soleCheckbox = some target.id then 700 else 300) +
      if objectCovered lex goal target.label ctx then 150 else 0
  else 0

/-- The bonuses that are capped for a label that is not exact. -/
def softBonus : Nat :=
  verbBonus lex goal target ctx + navBonus lex target ctx + checkboxBonus lex goal target ctx

def ceiling : Nat := if isExact lex goal target ctx then 1000 else NON_EXACT_CAP

/-- The label evidence alone lies between the cap and the maximum, where no step caps it. -/
def Uncapped : Prop :=
  isExact lex goal target ctx = false ∧
    NON_EXACT_CAP < (scoreActionBestCtx lex goal target ctx).get ∧
    (scoreActionBestCtx lex goal target ctx).get < 1000 ∧ softBonus lex goal target ctx = 0

variable {lex goal target ctx}

theorem get_soft (exact : Bool) (best : Confidence) (bonus : Nat) :
    (soft exact best bonus).get =
      min (if exact then 1000 else NON_EXACT_CAP) (best.get + bonus) := by
  unfold soft NON_EXACT_CAP
  cases exact <;> simp [Confidence.get_saturating] <;> omega

/-- The literals never lift a score past the cap. -/
theorem foldl_max_cases (score : String → Nat) (literals : List String) : ∀ base : Nat,
    literals.foldl (fun best literal => max best (min (score literal) NON_EXACT_CAP)) base = base ∨
    base < literals.foldl (fun best literal => max best (min (score literal) NON_EXACT_CAP)) base ∧
      literals.foldl (fun best literal => max best (min (score literal) NON_EXACT_CAP)) base ≤
        NON_EXACT_CAP := by
  induction literals with
  | nil => exact fun _ => .inl rfl
  | cons literal literals ih =>
    intro base
    rw [List.foldl_cons]
    have h := ih (max base (min (score literal) NON_EXACT_CAP))
    omega

theorem get_foldl_literals (score : String → Confidence) (literals : List String) :
    ∀ best : Confidence,
      (literals.foldl (fun best literal =>
        let lit := min (score literal).get NON_EXACT_CAP
        if best.get < lit then .saturating lit else best) best).get =
      literals.foldl (fun best literal => max best (min (score literal).get NON_EXACT_CAP))
        best.get := by
  induction literals with
  | nil => exact fun _ => rfl
  | cons literal literals ih =>
    intro best
    rw [List.foldl_cons, List.foldl_cons, ih]
    congr 1
    have hmax := (score literal).le_max
    dsimp only
    split_ifs with hlt
    · rw [Confidence.get_saturating]
      omega
    · omega

/-- One capped step. -/
def lift (exact applies : Bool) (bonus : Nat) (best : Confidence) : Confidence :=
  if applies then soft exact best bonus else best

/-- The step of a checkbox, uncapped for an exact label. -/
def liftCheckbox (exact applies : Bool) (bonus : Nat) (best : Confidence) : Confidence :=
  if applies then
    if exact then best.saturatingAdd (.saturating bonus) else soft exact best bonus
  else best

/-- The steps after the label evidence, from what they ask about the label. -/
def combine (exact covered verb nav checkbox : Bool) (sole payload : Prop) [Decidable sole]
    [Decidable payload] (best : Confidence) : Confidence :=
  let best := if best = .MAX && !exact then .saturating NON_EXACT_CAP else best
  let best := lift exact verb (if covered then 650 else 500) best
  let best := lift exact nav 600 best
  let best := liftCheckbox exact checkbox ((if sole then 700 else 300) + if covered then 150 else 0)
    best
  if payload then best.saturatingAdd (.saturating 850) else best

theorem get_lift (exact applies : Bool) (best : Confidence) {bonus : Nat} (hpos : 0 < bonus) :
    (lift exact applies bonus best).get =
      raise (if exact then 1000 else NON_EXACT_CAP) best.get (if applies then bonus else 0) := by
  unfold lift
  cases applies with
  | false => rfl
  | true =>
    have hne : bonus ≠ 0 := by omega
    simp only [if_true, raise, if_neg hne, get_soft]

theorem liftCheckbox_eq_lift (exact applies : Bool) (best : Confidence) {bonus : Nat}
    (h : bonus ≤ 1000) : liftCheckbox exact applies bonus best = lift exact applies bonus best := by
  unfold liftCheckbox lift
  cases exact with
  | false => rfl
  | true =>
    unfold soft Confidence.saturatingAdd
    rw [if_pos rfl, if_pos rfl, Confidence.get_saturating, min_eq_left h]

theorem get_combine (exact covered verb nav checkbox : Bool) (sole payload : Prop)
    [Decidable sole] [Decidable payload] (best : Confidence) :
    (combine exact covered verb nav checkbox sole payload best).get =
      let score := raise (if exact then 1000 else NON_EXACT_CAP)
        (if best.get = 1000 ∧ exact = false then NON_EXACT_CAP else best.get)
        ((if verb then if covered then 650 else 500 else 0) + (if nav then 600 else 0) +
          if checkbox then (if sole then 700 else 300) + (if covered then 150 else 0) else 0)
      if payload then min (score + 850) 1000 else score := by
  have hverb : 0 < if covered then 650 else 500 := by split_ifs <;> decide
  have hnav : 0 < 600 := by decide
  have hcheckbox : 0 < (if sole then 700 else 300) + if covered then 150 else 0 := by
    split_ifs <;> decide
  have hsmall : ((if sole then 700 else 300) + if covered then 150 else 0) ≤ 1000 := by
    split_ifs <;> decide
  have hpayload : (Confidence.saturating 850).get = 850 := rfl
  have hcap : (if best = .MAX && !exact then .saturating NON_EXACT_CAP else best).get =
      if best.get = 1000 ∧ exact = false then NON_EXACT_CAP else best.get := by
    cases exact with
    | true => simp
    | false =>
      simp only [Bool.not_false, Bool.and_true, decide_eq_true_eq, and_true, Confidence.eq_max_iff]
      split_ifs
      · rfl
      · rfl
  unfold combine
  dsimp only
  -- each step raises the score under the same ceiling, so the three bonuses add up
  rw [apply_ite Confidence.get, Confidence.get_saturatingAdd, hpayload,
    liftCheckbox_eq_lift exact checkbox _ hsmall, get_lift exact checkbox _ hcheckbox,
    get_lift exact nav _ hnav, get_lift exact verb _ hverb, hcap, raise_raise, raise_raise,
    ← Nat.add_assoc]

theorem scoreActionCtx_eq_combine :
    scoreActionCtx lex goal target ctx =
      combine (isExact lex goal target ctx) (objectCovered lex goal target.label ctx)
        (!ctx.unplacedLiteral && !ctx.verb.isEmpty && verbMatches lex ctx.verb target.label)
        (ctx.navLocatives.any fun w => eqFold lex w target.label)
        (ctx.toggleIntent && target.role = some "checkbox")
        (ctx.soleCheckbox = some target.id) (isPayloadTarget target ctx)
        (ctx.literals.foldl (fun best literal =>
          let lit := min (scoreActionTextCtx lex literal target ctx).get NON_EXACT_CAP
          if best.get < lit then .saturating lit else best)
          (scoreActionBestCtx lex goal target ctx)) := rfl

/-- The score, from the label evidence and the bonuses. -/
theorem get_scoreActionCtx :
    (scoreActionCtx lex goal target ctx).get =
      let label := labelScore lex goal target ctx
      let score := raise (ceiling lex goal target ctx)
        (if label = 1000 ∧ isExact lex goal target ctx = false then NON_EXACT_CAP else label)
        (softBonus lex goal target ctx)
      if isPayloadTarget target ctx then min (score + 850) 1000 else score := by
  rw [scoreActionCtx_eq_combine, get_combine, get_foldl_literals]
  rfl

/-- The label evidence is the goal's, or at most the cap. -/
theorem labelScore_cases (lex : Lexicon) (goal : String) (target : EvidenceTarget)
    (ctx : GoalEvidence) :
    labelScore lex goal target ctx = (scoreActionBestCtx lex goal target ctx).get ∨
      (scoreActionBestCtx lex goal target ctx).get < labelScore lex goal target ctx ∧
        labelScore lex goal target ctx ≤ NON_EXACT_CAP :=
  foldl_max_cases (fun literal => (scoreActionTextCtx lex literal target ctx).get) ctx.literals
    (scoreActionBestCtx lex goal target ctx).get

/-- Where the cap is applied, the score is the label evidence and the bonuses under the ceiling, and
the payload's bonus on top. -/
theorem scoreActionCtx_eq (h : ¬ Uncapped lex goal target ctx) :
    (scoreActionCtx lex goal target ctx).get =
      min 1000 (min (ceiling lex goal target ctx)
          (labelScore lex goal target ctx + softBonus lex goal target ctx) +
        if isPayloadTarget target ctx then 850 else 0) := by
  have hbase := (scoreActionBestCtx lex goal target ctx).le_max
  have hcases := labelScore_cases lex goal target ctx
  have hcap : NON_EXACT_CAP = 849 := rfl
  rw [get_scoreActionCtx]
  dsimp only
  unfold raise ceiling
  cases hexact : isExact lex goal target ctx with
  | true =>
    simp only [if_true, Bool.true_eq_false, and_false, if_false]
    split_ifs <;> omega
  | false =>
    have hband : NON_EXACT_CAP < (scoreActionBestCtx lex goal target ctx).get →
        (scoreActionBestCtx lex goal target ctx).get < 1000 →
        softBonus lex goal target ctx ≠ 0 := fun hlow hhigh hsoft => h ⟨hexact, hlow, hhigh, hsoft⟩
    simp only [Bool.false_eq_true, if_false, and_true]
    split_ifs <;> omega

/-- A label that is not exact never saturates without the payload, and it is at most the cap where
the cap is applied. -/
theorem scoreActionCtx_le_cap (hexact : isExact lex goal target ctx = false)
    (hpayload : ¬ isPayloadTarget target ctx) :
    scoreActionCtx lex goal target ctx ≠ .MAX ∧
      (¬ Uncapped lex goal target ctx →
        (scoreActionCtx lex goal target ctx).get ≤ NON_EXACT_CAP) := by
  have hcap : NON_EXACT_CAP = 849 := rfl
  constructor
  · have hbase := (scoreActionBestCtx lex goal target ctx).le_max
    have hcases := labelScore_cases lex goal target ctx
    rw [Ne, Confidence.eq_max_iff, get_scoreActionCtx]
    dsimp only
    unfold raise ceiling
    rw [hexact, if_neg hpayload]
    simp only [Bool.false_eq_true, if_false, and_true]
    split_ifs <;> omega
  · intro h
    rw [scoreActionCtx_eq h, ceiling, hexact, if_neg hpayload]
    simp only [Bool.false_eq_true, if_false]
    omega

end Score

section Fill

variable (lex : Lexicon) (goal : String) (target : EvidenceTarget)

/-- `ctx'` has what `ctx` has, and channels of `ctx` that are empty may be filled in. -/
structure Fills (ctx ctx' : GoalEvidence) : Prop where
  unplacedLiteral : ctx'.unplacedLiteral = ctx.unplacedLiteral
  hasLiteral : ctx'.hasLiteral = ctx.hasLiteral
  locatives : ctx'.locatives = ctx.locatives
  literals : ctx.literals ⊆ ctx'.literals
  verb : ctx.verb = "" ∨ ctx'.verb = ctx.verb
  navLocatives : ctx.navLocatives ⊆ ctx'.navLocatives
  toggleIntent : ctx.toggleIntent = true → ctx'.toggleIntent = true
  payloadTarget : ctx.payloadTarget = none ∨ ctx'.payloadTarget = ctx.payloadTarget
  soleCheckbox : ctx.soleCheckbox = none ∨ ctx'.soleCheckbox = ctx.soleCheckbox

/-- Filling in takes no evidence away: not the word of the verb while a literal is unplaced, and not
the object words that are covered for a verb or a toggle. -/
structure KeepsEvidence (ctx ctx' : GoalEvidence) : Prop where
  verb : ctx.unplacedLiteral = true → ctx'.verb = ctx.verb
  covered : ctx.verb ≠ "" ∨ ctx.toggleIntent = true →
    objectCovered lex goal target.label ctx = true → objectCovered lex goal target.label ctx' = true

variable {lex goal target} {ctx ctx' : GoalEvidence}

theorem foldl_max_le_iff {score : String → Nat} {n : Nat} (literals : List String) : ∀ base : Nat,
    literals.foldl (fun best literal => max best (score literal)) base ≤ n ↔
      base ≤ n ∧ ∀ literal ∈ literals, score literal ≤ n := by
  induction literals with
  | nil => simp
  | cons literal literals ih =>
    intro base
    rw [List.foldl_cons, ih, max_le_iff, List.forall_mem_cons, and_assoc]

/-- Of the channels, the score of a text only reads the verb, and that only while a literal is
unplaced. -/
theorem scoreActionTextCtx_congr (fills : Fills ctx ctx')
    (hverb : ctx.unplacedLiteral = true → ctx'.verb = ctx.verb) (lex : Lexicon)
    (target : EvidenceTarget) (text : String) :
    scoreActionTextCtx lex text target ctx' = scoreActionTextCtx lex text target ctx := by
  have hstrip : ∀ g, stripVerb lex g ctx' = stripVerb lex g ctx := by
    intro g
    unfold stripVerb
    rw [fills.unplacedLiteral]
    split_ifs with h
    · rw [hverb h]
    · rfl
  have hdone : doneSuppressed target.kind ctx' = doneSuppressed target.kind ctx := by
    unfold doneSuppressed
    rw [fills.hasLiteral]
  unfold scoreActionTextCtx labelEvidence keywordGoal
  rw [fills.hasLiteral, hstrip, hdone]

section Mono

variable (fills : Fills ctx ctx') (keeps : KeepsEvidence lex goal target ctx ctx')

include fills keeps

theorem scoreActionBestCtx_congr :
    scoreActionBestCtx lex goal target ctx' = scoreActionBestCtx lex goal target ctx := by
  unfold scoreActionBestCtx
  simp only [scoreActionTextCtx_congr fills keeps.verb]

theorem labelScore_mono : labelScore lex goal target ctx ≤ labelScore lex goal target ctx' := by
  have hbest := scoreActionBestCtx_congr fills keeps
  obtain ⟨hbase, hliterals⟩ := (foldl_max_le_iff ctx'.literals
    (scoreActionBestCtx lex goal target ctx').get).mp
    (le_refl (labelScore lex goal target ctx'))
  refine (foldl_max_le_iff ctx.literals _).mpr ⟨hbest ▸ hbase, ?_⟩
  intro literal hmem
  have h := hliterals literal (fills.literals hmem)
  rwa [scoreActionTextCtx_congr fills keeps.verb] at h

theorem isExact_mono (h : isExact lex goal target ctx = true) :
    isExact lex goal target ctx' = true := by
  have hlabel : exactLabelCtx lex goal target ctx' = exactLabelCtx lex goal target ctx := by
    unfold exactLabelCtx keywordGoal doneSuppressed
    rw [fills.hasLiteral]
  simp only [isExact, Bool.or_eq_true, Bool.and_eq_true] at h ⊢
  rw [hlabel]
  rcases h with h | ⟨⟨htoggle, hrole⟩, hcovered⟩
  · exact .inl h
  · exact .inr ⟨⟨fills.toggleIntent htoggle, hrole⟩, keeps.covered (.inr htoggle) hcovered⟩

theorem verbBonus_mono : verbBonus lex goal target ctx ≤ verbBonus lex goal target ctx' := by
  unfold verbBonus
  by_cases happlies : (!ctx.unplacedLiteral && !ctx.verb.isEmpty &&
      verbMatches lex ctx.verb target.label) = true
  · have hne : ctx.verb ≠ "" := by
      intro h
      simp [h] at happlies
    have hverb := fills.verb.resolve_left hne
    have hcovered := keeps.covered (.inl hne)
    rw [hverb, fills.unplacedLiteral, if_pos happlies, if_pos happlies]
    split_ifs <;> simp_all
  · rw [if_neg happlies]
    exact Nat.zero_le _

omit keeps in
theorem navBonus_mono : navBonus lex target ctx ≤ navBonus lex target ctx' := by
  unfold navBonus
  by_cases happlies : (ctx.navLocatives.any fun w => eqFold lex w target.label) = true
  · obtain ⟨w, hw, hlabel⟩ := List.any_eq_true.mp happlies
    have happlies' : (ctx'.navLocatives.any fun w => eqFold lex w target.label) = true :=
      List.any_eq_true.mpr ⟨w, fills.navLocatives hw, hlabel⟩
    simp only [happlies, happlies', if_true, le_refl]
  · rw [if_neg happlies]
    exact Nat.zero_le _

theorem checkboxBonus_mono :
    checkboxBonus lex goal target ctx ≤ checkboxBonus lex goal target ctx' := by
  unfold checkboxBonus
  by_cases happlies : (ctx.toggleIntent && target.role = some "checkbox") = true
  · obtain ⟨htoggle, hrole⟩ := Bool.and_eq_true_iff.mp happlies
    have happlies' : (ctx'.toggleIntent && target.role = some "checkbox") = true :=
      Bool.and_eq_true_iff.mpr ⟨fills.toggleIntent htoggle, hrole⟩
    have hsole : ctx.soleCheckbox = some target.id → ctx'.soleCheckbox = some target.id := by
      intro h
      rcases fills.soleCheckbox with hnone | hsame
      · rw [h] at hnone
        cases hnone
      · rw [hsame, h]
    have hcovered := keeps.covered (.inr htoggle)
    rw [if_pos happlies, if_pos happlies']
    refine Nat.add_le_add ?_ ?_
    · split_ifs <;> simp_all
    · split_ifs <;> simp_all
  · rw [if_neg happlies]
    exact Nat.zero_le _

theorem softBonus_mono : softBonus lex goal target ctx ≤ softBonus lex goal target ctx' :=
  Nat.add_le_add (Nat.add_le_add (verbBonus_mono fills keeps) (navBonus_mono fills))
    (checkboxBonus_mono fills keeps)

theorem Uncapped.of_fills (h : Uncapped lex goal target ctx') : Uncapped lex goal target ctx := by
  obtain ⟨hexact, hlow, hhigh, hsoft⟩ := h
  rw [scoreActionBestCtx_congr fills keeps] at hlow hhigh
  refine ⟨?_, hlow, hhigh, Nat.le_zero.mp (hsoft ▸ softBonus_mono fills keeps)⟩
  rw [Bool.eq_false_iff] at hexact ⊢
  exact fun h => hexact (isExact_mono fills keeps h)

theorem scoreActionCtx_mono (h : ¬ Uncapped lex goal target ctx) :
    (scoreActionCtx lex goal target ctx).get ≤ (scoreActionCtx lex goal target ctx').get := by
  have hlabel := labelScore_mono fills keeps
  have hsoft := softBonus_mono fills keeps
  have hceiling : ceiling lex goal target ctx ≤ ceiling lex goal target ctx' := by
    unfold ceiling
    cases hexact : isExact lex goal target ctx with
    | true => rw [isExact_mono fills keeps hexact]
    | false =>
      simp only [Bool.false_eq_true, if_false]
      split_ifs <;> decide
  have hpayload : isPayloadTarget target ctx → isPayloadTarget target ctx' := by
    intro ⟨hkind, hid⟩
    rcases fills.payloadTarget with hnone | hsame
    · rw [hid] at hnone
      cases hnone
    · exact ⟨hkind, hsame.trans hid⟩
  rw [scoreActionCtx_eq h, scoreActionCtx_eq fun h' => h (h'.of_fills fills keeps)]
  by_cases hp : isPayloadTarget target ctx
  · rw [if_pos hp, if_pos (hpayload hp)]
    omega
  · rw [if_neg hp]
    omega

end Mono

end Fill

/-- A candidate that is not exact stays under the cap, and channels that are filled in never lower a
score, unless the label evidence alone lies between the cap and the maximum. -/
theorem scoreActionCtx_cap_mono (lex : Lexicon) (goal : String) (target : EvidenceTarget)
    (ctx : GoalEvidence) :
    (isExact lex goal target ctx = false → ¬ isPayloadTarget target ctx →
      scoreActionCtx lex goal target ctx ≠ .MAX ∧
        (¬ Uncapped lex goal target ctx →
          (scoreActionCtx lex goal target ctx).get ≤ NON_EXACT_CAP)) ∧
    (¬ Uncapped lex goal target ctx → ∀ ctx', Fills ctx ctx' →
      KeepsEvidence lex goal target ctx ctx' →
        (scoreActionCtx lex goal target ctx).get ≤ (scoreActionCtx lex goal target ctx').get) :=
  ⟨fun hexact hpayload => scoreActionCtx_le_cap hexact hpayload,
    fun h _ fills keeps => scoreActionCtx_mono fills keeps h⟩

/-- The overlap is the share of the candidate's words that the query has. -/
def overlapLexicon : Lexicon :=
  { Lexicon.ascii with
    lexicalOverlap := fun query candidate =>
      let words := splitWhitespace (toAsciiLowercase candidate)
      let found := words.countP (splitWhitespace (toAsciiLowercase query)).contains
      some (.saturating (1000 * found / max words.length 1)) }

def skipNavigation : EvidenceTarget :=
  ⟨"skip-nav", "Skip navigation main content bar", some "link", .click⟩

def addButton : EvidenceTarget := ⟨"todo-add", "Add", some "button", .click⟩

theorem scoreActionCtx_cap_mono_add :
    (scoreActionCtx .ascii "add a todo" addButton {}).get ≤ 849 ∧
    (scoreActionCtx .ascii "add a todo" addButton {}).get ≤
      (scoreActionCtx .ascii "add a todo" addButton { verb := "add" }).get := by
  have hcapped : ¬ Uncapped .ascii "add a todo" addButton {} := by
    unfold Uncapped
    decide +kernel
  have h := scoreActionCtx_cap_mono .ascii "add a todo" addButton {}
  refine ⟨(h.1 (by decide +kernel) (by decide)).2 hcapped, h.2 hcapped _ ?_ ?_⟩
  · exact ⟨rfl, rfl, rfl, List.Subset.refl _, .inl rfl, List.Subset.refl _, id, .inl rfl, .inl rfl⟩
  · exact ⟨fun h => (Bool.false_ne_true h).elim, fun h => by simp at h⟩

/-- A label that only contains the goal scores above the cap, and the verb lowers a score while a
literal is unplaced. -/
theorem skipNavigation_overCap :
    (isExact overlapLexicon "Skip navigation" skipNavigation {} = false ∧
      ¬ isPayloadTarget skipNavigation {} ∧
      NON_EXACT_CAP < (scoreActionCtx overlapLexicon "Skip navigation" skipNavigation {}).get) ∧
    Fills { unplacedLiteral := true } { unplacedLiteral := true, verb := "add" } ∧
    (scoreActionCtx overlapLexicon "add a todo" addButton
        { unplacedLiteral := true, verb := "add" }).get <
      (scoreActionCtx overlapLexicon "add a todo" addButton { unplacedLiteral := true }).get := by
  refine ⟨⟨by decide +kernel, by decide, by decide +kernel⟩, ?_, by decide +kernel⟩
  exact ⟨rfl, rfl, rfl, List.Subset.refl _, .inl rfl, List.Subset.refl _, id, .inl rfl, .inl rfl⟩

end GpuiAgent
