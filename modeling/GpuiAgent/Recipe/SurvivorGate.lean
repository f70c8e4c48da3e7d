import GpuiAgent.Recipe.InstinctResolve

namespace GpuiAgent

open Framework

namespace InstinctResolve

/-- The intent names the schema, and its verb does not speak against it. -/
def Named (lex : Lexicon) (intent : String) (s : DescribedSchema) : Prop :=
  exact intent s = true ∧ vetoed lex intent s = false

/-- What a raw score is worth beside the best one. -/
def share (raw : DescribedSchema → Nat) (field : List DescribedSchema) (s : DescribedSchema) : Nat :=
  NON_EXACT_CAP * raw s / topRaw raw field

/-- By its raw score, `s` is ahead of every schema of the field that the verb allows. -/
def Ahead (lex : Lexicon) (intent : String) (raw : DescribedSchema → Nat)
    (field : List DescribedSchema) (s : DescribedSchema) : Prop :=
  s ∈ field ∧ vetoed lex intent s = false ∧ RAW_MIN ≤ topRaw raw field ∧
    750 ≤ share raw field s ∧
    ∀ t ∈ field, t ≠ s → vetoed lex intent t = false →
      share raw field t + 150 ≤ share raw field s

/-- `s` has enough evidence, and 849 times that of any other schema is less than 700 times its
own. -/
def FarAhead (raw : DescribedSchema → Nat) (field : List DescribedSchema) (s : DescribedSchema) :
    Prop :=
  s ∈ field ∧ RAW_MIN ≤ raw s ∧ ∀ t ∈ field, t ≠ s → NON_EXACT_CAP * raw t < 700 * raw s

/-- What the raw score of a schema that is left out would leave as it is, where the verb allows some
schemas only. -/
structure Harmless (lex : Lexicon) (intent : String) (raw : DescribedSchema → Nat)
    (kept all : List DescribedSchema) (p : DescribedSchema) : Prop where
  /-- By its raw score it is not ahead itself. -/
  behind : ¬ Ahead lex intent raw all p
  /-- A schema that is ahead keeps the floor. -/
  room : ∀ s, Ahead lex intent raw kept s → 750 * raw p ≤ NON_EXACT_CAP * raw s
  /-- It keeps its distance to a schema that the verb allows. -/
  apart : vetoed lex intent p = false →
    ∀ s, Ahead lex intent raw kept s → share raw all p + 150 ≤ share raw all s
  /-- Scaled by this score, where it is the best, it keeps its distance to the others. -/
  scales : (∀ t ∈ all, raw t ≤ raw p) → ∀ s, Ahead lex intent raw kept s →
    ∀ t ∈ kept, t ≠ s → vetoed lex intent t = false →
      NON_EXACT_CAP * raw t / raw p + 150 ≤ NON_EXACT_CAP * raw s / raw p
  /-- Nor is any other schema ahead when all is scaled by this score. -/
  raises : (∀ t ∈ all, raw t ≤ raw p) → RAW_MIN ≤ raw p → ∀ s ∈ kept,
    vetoed lex intent s = false → 750 * raw p ≤ NON_EXACT_CAP * raw s →
    (∀ t ∈ all, t ≠ s → vetoed lex intent t = false →
      NON_EXACT_CAP * raw t / raw p + 150 ≤ NON_EXACT_CAP * raw s / raw p) →
    Ahead lex intent raw kept s

section Gate

variable {lex : Lexicon} {intent : String}
variable {raw : DescribedSchema → Nat} {field : List DescribedSchema} {s : DescribedSchema}

theorem le_topRaw (h : s ∈ field) : raw s ≤ topRaw raw field := by
  unfold topRaw
  induction field with
  | nil => cases h
  | cons t field ih =>
    rw [List.map_cons, List.foldr_cons]
    obtain rfl | h := List.mem_cons.mp h
    · exact le_max_left _ _
    · exact (ih h).trans (le_max_right _ _)

theorem topRaw_le {n : Nat} (h : ∀ s ∈ field, raw s ≤ n) : topRaw raw field ≤ n := by
  unfold topRaw
  induction field with
  | nil => exact Nat.zero_le n
  | cons t field ih =>
    rw [List.map_cons, List.foldr_cons]
    have hrest := ih fun s hs => h s (List.mem_cons_of_mem t hs)
    exact max_le (h t List.mem_cons_self) hrest

theorem topRaw_eq (hs : s ∈ field) (hbest : ∀ t ∈ field, t ≠ s → raw t ≤ raw s) :
    topRaw raw field = raw s := by
  refine le_antisymm (topRaw_le fun t ht => ?_) (le_topRaw hs)
  by_cases hne : t = s
  · exact hne ▸ le_rfl
  · exact hbest t ht hne

/-- The best raw score has the whole share. -/
theorem share_top (htop : topRaw raw field = raw s) (hmin : RAW_MIN ≤ raw s) :
    share raw field s = NON_EXACT_CAP := by
  have hpos : 0 < raw s := lt_of_lt_of_le (by decide) hmin
  rw [share, htop, Nat.mul_div_cancel _ hpos]

/-- Scaling never reaches what an exact name has. -/
theorem scaled_le (h : s ∈ field) : scaled raw field s ≤ NON_EXACT_CAP := by
  have htop : raw s ≤ topRaw raw field := le_topRaw h
  unfold scaled
  split_ifs with hmin
  · exact Nat.div_le_of_le_mul (by rw [Nat.mul_comm]; exact Nat.mul_le_mul_right _ htop)
  · have hsmall : raw s < RAW_MIN := by omega
    exact (hsmall.trans (by decide)).le

theorem millis_of_named (h : Named lex intent s) : millis lex intent raw field s = 1000 := by
  simp [millis, h.1, h.2]

theorem millis_of_vetoed (h : vetoed lex intent s = true) :
    millis lex intent raw field s ≤ 500 := by
  simp [millis, h]

theorem millis_of_unvetoed (hexact : exact intent s = false) (h : vetoed lex intent s = false) :
    millis lex intent raw field s = scaled raw field s := by
  simp [millis, hexact, h]

theorem millis_of_not_named (hs : s ∈ field) (h : ¬ Named lex intent s) :
    millis lex intent raw field s ≤ NON_EXACT_CAP := by
  cases hveto : vetoed lex intent s with
  | true => exact (millis_of_vetoed hveto).trans (by decide)
  | false =>
    have hexact : exact intent s = false := by
      by_contra hexact
      exact h ⟨by simpa using hexact, hveto⟩
    rw [millis_of_unvetoed hexact hveto]
    exact scaled_le hs

theorem millis_le (hs : s ∈ field) : millis lex intent raw field s ≤ 1000 := by
  by_cases h : Named lex intent s
  · exact (millis_of_named h).le
  · exact (millis_of_not_named hs h).trans (by decide)

/-- A schema without evidence takes no part. -/
theorem millis_of_dropped (h : (exact intent s || decide (0 < raw s)) = false) :
    millis lex intent raw field s = 0 := by
  simp only [Bool.or_eq_false_iff, decide_eq_false_iff_not, Nat.not_lt, Nat.le_zero] at h
  simp [millis, scaled, h.1, h.2]

variable (lex intent) in
/-- What is decided is the leader of the field. -/
theorem decision_eq_some_iff (hnodup : field.Nodup)
    (hname : ∀ s ∈ field, ∀ t ∈ field, s.name = t.name → s = t) (hintent : trim intent ≠ "")
    {id : String} : decision lex intent raw field = some id ↔
      ∃ s : DescribedSchema, s.name = id ∧ Leads 750 150 (millis lex intent raw field) field s := by
  have hgets : (candidates lex intent raw field).map (fun c => (c.1, c.2.get)) =
      (field.filter fun s => exact intent s || 0 < raw s).map fun s =>
        (s.name, millis lex intent raw field s) := by
    rw [candidates, List.map_map]
    refine List.map_congr_left fun s hs => ?_
    have hle : millis lex intent raw field s ≤ 1000 := millis_le (List.mem_filter.mp hs).1
    exact congrArg (Prod.mk s.name) (min_eq_left hle)
  rw [decision, if_neg (by simpa using hintent), choose, hgets]
  refine arbitrate_map_eq_some_iff (by decide) hnodup hname fun s _ hdrop => ?_
  rw [millis_of_dropped hdrop]
  decide

/-- An exact name decides alone, whatever the raw scores are. -/
theorem leads_iff_of_named {t : DescribedSchema} (ht : t ∈ field) (hnamed : Named lex intent t) :
    Leads 750 150 (millis lex intent raw field) field s ↔
      s = t ∧ ∀ u ∈ field, u ≠ t → ¬ Named lex intent u := by
  constructor
  · intro ⟨hs, _, hahead⟩
    have hst : s = t := by
      by_contra hne
      have hbehind := hahead t ht (Ne.symm hne)
      have hmax : millis lex intent raw field s ≤ 1000 := millis_le hs
      rw [millis_of_named hnamed] at hbehind
      omega
    subst hst
    refine ⟨rfl, fun u hu hne hother => ?_⟩
    have hbehind := hahead u hu hne
    rw [millis_of_named hnamed, millis_of_named hother] at hbehind
    omega
  · intro ⟨hst, hothers⟩
    subst hst
    refine ⟨ht, ?_, fun u hu hne => ?_⟩
    · rw [millis_of_named hnamed]
      decide
    · have hle : millis lex intent raw field u ≤ NON_EXACT_CAP :=
        millis_of_not_named hu (hothers u hu hne)
      rw [millis_of_named hnamed]
      exact (Nat.add_le_add_right hle 150).trans (by decide)

/-- Where no name decides, the leader is the schema that is ahead. -/
theorem leads_iff_ahead (hnone : ∀ t ∈ field, ¬ Named lex intent t) :
    Leads 750 150 (millis lex intent raw field) field s ↔ Ahead lex intent raw field s := by
  have hexact : ∀ t ∈ field, vetoed lex intent t = false → exact intent t = false := by
    intro t ht hveto
    by_contra hexact
    exact hnone t ht ⟨by simpa using hexact, hveto⟩
  have hshare : RAW_MIN ≤ topRaw raw field → ∀ t ∈ field, vetoed lex intent t = false →
      millis lex intent raw field t = share raw field t := by
    intro htop t ht hveto
    rw [millis_of_unvetoed (hexact t ht hveto) hveto, scaled, if_pos htop, share]
  constructor
  · intro ⟨hs, hfloor, hahead⟩
    have hveto : vetoed lex intent s = false := by
      by_contra hveto
      have hlow : millis lex intent raw field s ≤ 500 :=
        millis_of_vetoed (by simpa using hveto)
      omega
    have htop : RAW_MIN ≤ topRaw raw field := by
      by_contra hlow
      have hraw : raw s ≤ topRaw raw field := le_topRaw hs
      rw [millis_of_unvetoed (hexact s hs hveto) hveto, scaled, if_neg hlow] at hfloor
      unfold RAW_MIN at hlow
      omega
    rw [hshare htop s hs hveto] at hfloor hahead
    refine ⟨hs, hveto, htop, hfloor, fun t ht hne htveto => ?_⟩
    rw [← hshare htop t ht htveto]
    exact hahead t ht hne
  · intro ⟨hs, hveto, htop, hfloor, hahead⟩
    rw [Leads, hshare htop s hs hveto]
    refine ⟨hs, hfloor, fun t ht hne => ?_⟩
    cases htveto : vetoed lex intent t with
    | true =>
      have hlow : millis lex intent raw field t ≤ 500 := millis_of_vetoed htveto
      omega
    | false =>
      rw [hshare htop t ht htveto]
      exact hahead t ht hne htveto

/-- Without a click verb, to be ahead is a matter of the raw scores alone. -/
theorem ahead_iff_farAhead (hverb : clickVerb lex intent = false) :
    Ahead lex intent raw field s ↔ FarAhead raw field s := by
  have hveto : ∀ t, vetoed lex intent t = false := fun t => by simp [vetoed, hverb]
  constructor
  · intro ⟨hs, _, htop, hfloor, hahead⟩
    have hlower : ∀ t ∈ field, t ≠ s → raw t ≤ raw s := by
      intro t ht hne
      by_contra hlt
      have hshare : share raw field s ≤ share raw field t :=
        Nat.div_le_div_right (Nat.mul_le_mul_left _ (Nat.not_le.mp hlt).le)
      have hbehind := hahead t ht hne (hveto t)
      omega
    have hbest := topRaw_eq hs hlower
    rw [hbest] at htop
    have hpos : 0 < raw s := lt_of_lt_of_le (by decide) htop
    refine ⟨hs, htop, fun t ht hne => ?_⟩
    have hbehind := hahead t ht hne (hveto t)
    rw [share_top hbest htop] at hbehind
    have hlt : share raw field t < 700 := by
      unfold NON_EXACT_CAP at hbehind
      omega
    rw [share, hbest] at hlt
    exact (Nat.div_lt_iff_lt_mul hpos).mp hlt
  · intro ⟨hs, hmin, hfar⟩
    have hlower : ∀ t ∈ field, t ≠ s → raw t ≤ raw s := by
      intro t ht hne
      have hlt := hfar t ht hne
      unfold NON_EXACT_CAP at hlt
      omega
    have hbest := topRaw_eq hs hlower
    have hpos : 0 < raw s := lt_of_lt_of_le (by decide) hmin
    have hshare : ∀ t ∈ field, t ≠ s → share raw field t < 700 := by
      intro t ht hne
      rw [share, hbest]
      exact (Nat.div_lt_iff_lt_mul hpos).mpr (hfar t ht hne)
    rw [Ahead, hbest, share_top hbest hmin]
    refine ⟨hs, hveto s, hmin, by decide, fun t ht hne _ => ?_⟩
    have hlt := hshare t ht hne
    unfold NON_EXACT_CAP
    omega

/-- Two rows of raw scores decide alike exactly when they have the same leaders. -/
theorem decision_eq_iff {raw' : DescribedSchema → Nat} (hnodup : field.Nodup)
    (hname : ∀ s ∈ field, ∀ t ∈ field, s.name = t.name → s = t) (hintent : trim intent ≠ "") :
    decision lex intent raw field = decision lex intent raw' field ↔
      ∀ s, Leads 750 150 (millis lex intent raw field) field s ↔
        Leads 750 150 (millis lex intent raw' field) field s := by
  have hiff : ∀ raw id, decision lex intent raw field = some id ↔ ∃ s : DescribedSchema,
      s.name = id ∧ Leads 750 150 (millis lex intent raw field) field s := fun _ _ =>
    decision_eq_some_iff lex intent hnodup hname hintent
  constructor
  · intro heq s
    -- the leader is the one schema with the name that was chosen
    have hlead : ∀ raw₁ raw₂ : DescribedSchema → Nat,
        decision lex intent raw₁ field = decision lex intent raw₂ field →
        Leads 750 150 (millis lex intent raw₁ field) field s →
        Leads 750 150 (millis lex intent raw₂ field) field s := by
      intro raw₁ raw₂ heq hs
      have hchosen := (hiff raw₁ s.name).mpr ⟨s, rfl, hs⟩
      obtain ⟨t, hid, ht⟩ := (hiff raw₂ s.name).mp (heq ▸ hchosen)
      exact hname t ht.1 s hs.1 hid ▸ ht
    exact ⟨hlead raw raw' heq, hlead raw' raw heq.symm⟩
  · intro hleads
    refine Option.ext fun id => ?_
    rw [hiff raw id, hiff raw' id]
    exact exists_congr fun s => and_congr_right fun _ => hleads s

end Gate

section Survivors

variable {lex : Lexicon} {intent : String} {raw : DescribedSchema → Nat}
  {field : List DescribedSchema} {keep : DescribedSchema → Bool}

/-- A schema this far down is out of the reach of whatever is ahead. -/
def OUT_OF_REACH : Nat := 353

theorem share_of_small {s : DescribedSchema} (hraw : raw s ≤ OUT_OF_REACH)
    (htop : RAW_MIN ≤ topRaw raw field) : share raw field s + 150 < 750 := by
  have hmul : NON_EXACT_CAP * raw s ≤ NON_EXACT_CAP * OUT_OF_REACH := Nat.mul_le_mul_left _ hraw
  have hdiv : share raw field s ≤ NON_EXACT_CAP * OUT_OF_REACH / RAW_MIN :=
    Nat.div_le_div hmul htop (by decide)
  have hvalue : NON_EXACT_CAP * OUT_OF_REACH / RAW_MIN = 599 := by decide
  omega

/-- Low scores can be left out of a field without a change to its top. -/
theorem topRaw_filter (hsmall : ∀ s ∈ field, keep s = false → raw s ≤ OUT_OF_REACH) :
    (RAW_MIN ≤ topRaw raw field ∨ RAW_MIN ≤ topRaw raw (field.filter keep)) →
      topRaw raw (field.filter keep) = topRaw raw field := by
  have hle : topRaw raw (field.filter keep) ≤ topRaw raw field :=
    topRaw_le fun s hs => le_topRaw (List.mem_filter.mp hs).1
  have hge : topRaw raw field ≤ max (topRaw raw (field.filter keep)) OUT_OF_REACH := by
    refine topRaw_le fun s hs => ?_
    cases hkeep : keep s with
    | false => exact (hsmall s hs hkeep).trans (le_max_right _ _)
    | true =>
      have htop : raw s ≤ topRaw raw (field.filter keep) :=
        le_topRaw (List.mem_filter.mpr ⟨hs, hkeep⟩)
      exact htop.trans (le_max_left _ _)
  have hreach : OUT_OF_REACH < RAW_MIN := by decide
  omega

/-- Nor do they change what is ahead. -/
theorem ahead_filter_iff (hsmall : ∀ s ∈ field, keep s = false → raw s ≤ OUT_OF_REACH)
    {s : DescribedSchema} :
    Ahead lex intent raw (field.filter keep) s ↔ Ahead lex intent raw field s := by
  have htops := topRaw_filter hsmall
  constructor
  · intro ⟨hs, hveto, htop, hfloor, hahead⟩
    have heq := htops (.inr htop)
    unfold share at hfloor hahead
    rw [heq] at htop hfloor hahead
    refine ⟨(List.mem_filter.mp hs).1, hveto, htop, hfloor, fun t ht hne htveto => ?_⟩
    cases hkeep : keep t with
    | false =>
      have hlow : share raw field t + 150 < 750 := share_of_small (hsmall t ht hkeep) htop
      unfold share at hlow ⊢
      omega
    | true => exact hahead t (List.mem_filter.mpr ⟨ht, hkeep⟩) hne htveto
  · intro ⟨hs, hveto, htop, hfloor, hahead⟩
    have heq := htops (.inl htop)
    have hkeep : keep s = true := by
      by_contra hdrop
      have hlow : share raw field s + 150 < 750 :=
        share_of_small (hsmall s hs (by simpa using hdrop)) htop
      omega
    unfold Ahead share
    rw [heq]
    refine ⟨List.mem_filter.mpr ⟨hs, hkeep⟩, hveto, htop, hfloor, fun t ht hne htveto => ?_⟩
    exact hahead t (List.mem_filter.mp ht).1 hne htveto

/-- A schema of the field has the best raw score. -/
theorem exists_topRaw (hne : field ≠ []) : ∃ b ∈ field, topRaw raw field = raw b := by
  unfold topRaw
  induction field with
  | nil => exact absurd rfl hne
  | cons t field ih =>
    rw [List.map_cons, List.foldr_cons]
    rcases le_total ((field.map raw).foldr max 0) (raw t) with hle | hle
    · exact ⟨t, List.mem_cons_self, max_eq_left hle⟩
    · rw [max_eq_right hle]
      by_cases hnil : field = []
      · subst hnil
        exact ⟨t, List.mem_cons_self, le_antisymm (Nat.zero_le _) hle⟩
      · obtain ⟨b, hb, heq⟩ := ih hnil
        exact ⟨b, List.mem_cons_of_mem t hb, heq⟩

/-- The best raw score is that of a schema left out, or it stays. -/
theorem topRaw_filter_cases (hne : field ≠ []) :
    (∃ p ∈ field, keep p = false ∧ topRaw raw field = raw p) ∨
      topRaw raw (field.filter keep) = topRaw raw field := by
  obtain ⟨b, hb, heq⟩ := @exists_topRaw raw field hne
  cases hkeep : keep b with
  | false => exact .inl ⟨b, hb, hkeep, heq⟩
  | true =>
    refine .inr (le_antisymm (topRaw_le fun t ht => le_topRaw (List.mem_filter.mp ht).1) ?_)
    rw [heq]
    exact le_topRaw (List.mem_filter.mpr ⟨hb, hkeep⟩)

/-- What makes no difference to what is ahead is harmless. -/
theorem harmless_of_ahead_iff
    (hsame : ∀ s, Ahead lex intent raw (field.filter keep) s ↔ Ahead lex intent raw field s)
    {p : DescribedSchema} (hp : p ∈ field) (hdrop : keep p = false) :
    Harmless lex intent raw (field.filter keep) field p := by
  have hout : ∀ s ∈ field.filter keep, p ≠ s := by
    intro s hs heq
    rw [heq, (List.mem_filter.mp hs).2] at hdrop
    cases hdrop
  refine ⟨fun hahead => ?_, fun s hs => ?_, fun hveto s hs => ?_, fun hbest s hs t ht hne htveto =>
    ?_, fun hbest hmin s hs hveto hfloor hapart => ?_⟩
  · exact hout p ((hsame p).mpr hahead).1 rfl
  · obtain ⟨-, -, htop, hfloor, -⟩ := (hsame s).mp hs
    have hpos : 0 < topRaw raw field := lt_of_lt_of_le (by decide) htop
    have hle : 750 * raw p ≤ 750 * topRaw raw field := Nat.mul_le_mul_left _ (le_topRaw hp)
    exact hle.trans ((Nat.le_div_iff_mul_le hpos).mp hfloor)
  · obtain ⟨-, -, -, -, hapart⟩ := (hsame s).mp hs
    exact hapart p hp (hout s hs.1) hveto
  · obtain ⟨-, -, -, -, hapart⟩ := (hsame s).mp hs
    have hdistance := hapart t (List.mem_filter.mp ht).1 hne htveto
    unfold share at hdistance
    rwa [topRaw_eq hp fun t ht _ => hbest t ht] at hdistance
  · have htop := topRaw_eq hp fun t ht _ => hbest t ht
    have hpos : 0 < raw p := lt_of_lt_of_le (by decide) hmin
    rw [hsame s, Ahead]
    unfold share
    rw [htop]
    exact ⟨(List.mem_filter.mp hs).1, hveto, hmin, (Nat.le_div_iff_mul_le hpos).mpr hfloor, hapart⟩

section Harmless

variable {s : DescribedSchema}
  (hharmless : ∀ p ∈ field, keep p = false → Harmless lex intent raw (field.filter keep) field p)
include hharmless

theorem ahead_of_harmless (hs : Ahead lex intent raw (field.filter keep) s) :
    Ahead lex intent raw field s := by
  have ⟨hmem, hveto, htop, hfloor, hapart⟩ := hs
  have hfield := (List.mem_filter.mp hmem).1
  have hpos : 0 < topRaw raw (field.filter keep) := lt_of_lt_of_le (by decide) htop
  have hmin : RAW_MIN ≤ topRaw raw field :=
    htop.trans (topRaw_le fun t ht => le_topRaw (List.mem_filter.mp ht).1)
  refine ⟨hfield, hveto, hmin, ?_, fun t ht hne htveto => ?_⟩
  · -- the floor holds against whatever has the best score
    refine (Nat.le_div_iff_mul_le (lt_of_lt_of_le (by decide) hmin)).mpr ?_
    obtain ⟨b, hb, heq⟩ := @exists_topRaw raw field (List.ne_nil_of_mem hfield)
    rw [heq]
    cases hkeep : keep b with
    | false => exact (hharmless b hb hkeep).room s hs
    | true =>
      have hle : 750 * raw b ≤ 750 * topRaw raw (field.filter keep) :=
        Nat.mul_le_mul_left _ (le_topRaw (List.mem_filter.mpr ⟨hb, hkeep⟩))
      exact hle.trans ((Nat.le_div_iff_mul_le hpos).mp hfloor)
  · cases hkeep : keep t with
    | false => exact (hharmless t ht hkeep).apart htveto s hs
    | true =>
      have htkept := List.mem_filter.mpr ⟨ht, hkeep⟩
      unfold share
      rcases @topRaw_filter_cases raw field keep (List.ne_nil_of_mem hfield) with
        ⟨p, hp, hdrop, heq⟩ | heq
      · rw [heq]
        exact (hharmless p hp hdrop).scales (fun u hu => heq ▸ le_topRaw hu) s hs t htkept hne
          htveto
      · rw [← heq]
        exact hapart t htkept hne htveto

theorem ahead_filter_of_harmless (hs : Ahead lex intent raw field s) :
    Ahead lex intent raw (field.filter keep) s := by
  have ⟨hmem, hveto, htop, hfloor, hapart⟩ := hs
  cases hkeep : keep s with
  | false => exact absurd hs (hharmless s hmem hkeep).behind
  | true =>
    have hskept := List.mem_filter.mpr ⟨hmem, hkeep⟩
    unfold share at hfloor hapart
    rcases @topRaw_filter_cases raw field keep (List.ne_nil_of_mem hmem) with
      ⟨p, hp, hdrop, heq⟩ | heq
    · rw [heq] at htop hfloor hapart
      have hpos : 0 < raw p := lt_of_lt_of_le (by decide) htop
      exact (hharmless p hp hdrop).raises (fun u hu => heq ▸ le_topRaw hu) htop s hskept hveto
        ((Nat.le_div_iff_mul_le hpos).mp hfloor) hapart
    · rw [← heq] at htop hfloor hapart
      exact ⟨hskept, hveto, htop, hfloor, fun t ht => hapart t (List.mem_filter.mp ht).1⟩

end Harmless

/-- Those that are left out make no difference to what is ahead exactly when each of them is
harmless. -/
theorem ahead_filter_iff_harmless :
    (∀ s, Ahead lex intent raw (field.filter keep) s ↔ Ahead lex intent raw field s) ↔
      ∀ p ∈ field, keep p = false → Harmless lex intent raw (field.filter keep) field p :=
  ⟨fun hsame _ hp hdrop => harmless_of_ahead_iff hsame hp hdrop, fun hharmless _ =>
    ⟨ahead_of_harmless hharmless, ahead_filter_of_harmless hharmless⟩⟩

theorem topRaw_congr {raw' : DescribedSchema → Nat} (h : ∀ s ∈ field, raw s = raw' s) :
    topRaw raw field = topRaw raw' field :=
  congrArg (List.foldr max 0) (List.map_congr_left h)

theorem ahead_congr {raw' : DescribedSchema → Nat} (h : ∀ s ∈ field, raw s = raw' s)
    {s : DescribedSchema} : Ahead lex intent raw field s ↔ Ahead lex intent raw' field s := by
  have hshare : ∀ t ∈ field, share raw field t = share raw' field t := by
    intro t ht
    unfold share
    rw [h t ht, topRaw_congr h]
  unfold Ahead
  rw [topRaw_congr h]
  refine and_congr_right fun hs => and_congr_right fun _ => and_congr_right fun _ => ?_
  rw [hshare s hs]
  refine and_congr_right fun _ => forall₂_congr fun t ht => ?_
  rw [hshare t ht]

end Survivors

section Hits

theorem zoneOverlap_pos_iff {opTokens candidate : List String} {df : String → Option Nat} :
    0 < (zoneOverlap opTokens candidate df).1 ↔
      ∃ t ∈ candidate, opHas opTokens t = true ∧ 0 < weight df t := by
  have hfold : ∀ zone : Nat × Nat, 0 < (candidate.foldl (fun zone t =>
      (if opHas opTokens t then zone.1 + weight df t else zone.1, zone.2 + weight df t)) zone).1 ↔
        0 < zone.1 ∨ ∃ t ∈ candidate, opHas opTokens t = true ∧ 0 < weight df t := by
    induction candidate with
    | nil => simp
    | cons t candidate ih =>
      intro zone
      rw [List.foldl_cons, ih, List.exists_mem_cons_iff, ← or_assoc]
      refine or_congr_left ?_
      by_cases hmatch : opHas opTokens t = true
      · simp [hmatch]
      · simp [hmatch]
  rw [zoneOverlap, hfold]
  simp

/-- With at most a thousand schemas every token weighs something. -/
theorem weight_tokenDf_pos {schemas : List DescribedSchema} (hmany : schemas.length ≤ 1000)
    (field : DescribedSchema → List String) (t : String) :
    0 < weight (tokenDf schemas field) t := by
  have hdf : (tokenDf schemas field t).getD 1 ≤ 1000 := by
    have hle : schemas.countP (fun s => (field s).contains t) ≤ schemas.length :=
      List.countP_le_length
    unfold tokenDf
    dsimp only
    split_ifs
    · decide
    · exact hle.trans hmany
  exact Nat.div_pos (max_le hdf (by decide)) (by omega)

theorem hitsScore_le (lex : Lexicon) (opTokens : List String) (s : DescribedSchema) :
    hitsScore lex opTokens s ≤ 300 := by
  unfold hitsScore
  dsimp only
  split_ifs
  · exact le_rfl
  · refine Nat.div_le_of_le_mul ?_
    have hcount : opTokens.countP (fun t => names lex s t ||
        (tokensIter lex s.description).any fun d => eqIgnoreAsciiCase d t) ≤ opTokens.length :=
      List.countP_le_length
    have hmax := le_max_left opTokens.length 1
    omega

end Hits

section Resolve

variable (lex : Lexicon) (catalog : Catalog) (intent : String)

/-- An identity hit is a word of the intent that is a token of the name, or a whole keyword. -/
theorem identityHit_iff (hmany : catalog.schemas.length ≤ 1000) {s : DescribedSchema} :
    identityHit lex catalog intent s = true ↔ ∃ v ∈ opTokens lex intent, names lex s v = true := by
  have hzone : ∀ (candidate : List String) (field : DescribedSchema → List String),
      0 < (zoneOverlap (opTokens lex intent) candidate (tokenDf catalog.schemas field)).1 ↔
        ∃ v ∈ opTokens lex intent, ∃ t ∈ candidate, eqIgnoreAsciiCase t v = true := by
    intro candidate field
    rw [zoneOverlap_pos_iff]
    simp only [weight_tokenDf_pos hmany, and_true, opHas, List.any_eq_true]
    constructor
    · intro ⟨t, ht, v, hv, heq⟩
      exact ⟨v, hv, t, ht, by simpa [eqIgnoreAsciiCase, eq_comm] using heq⟩
    · intro ⟨v, hv, t, ht, heq⟩
      exact ⟨t, ht, v, hv, by simpa [eqIgnoreAsciiCase, eq_comm] using heq⟩
  simp only [identityHit, nameZone, keywordZone, decide_eq_true_eq, Nat.add_pos_iff_pos_or_pos,
    hzone, names, Bool.or_eq_true, List.any_eq_true, and_or_left, exists_or]

/-- The schemas with an identity hit. -/
def survivors : List DescribedSchema := catalog.schemas.filter (identityHit lex catalog intent)

theorem gatedRaw_of_pruned {s : DescribedSchema} (h : identityHit lex catalog intent s = false) :
    gatedRaw lex catalog intent s ≤ 300 := by
  have hzero : (nameZone lex catalog intent s).1 = 0 ∧ (keywordZone lex catalog intent s).1 = 0 := by
    simpa [identityHit] using h
  rw [gatedRaw, if_neg (by simp [h]), base, hzero.1, hzero.2, verbBonus]
  split_ifs <;> simp

theorem gatedRaw_of_survivor {s : DescribedSchema} (h : s ∈ survivors lex catalog intent) :
    gatedRaw lex catalog intent s = fullRaw lex catalog intent s :=
  if_pos (List.mem_filter.mp h).2

/-- The gate makes the survivors alone compete. -/
theorem ahead_gatedRaw_iff {s : DescribedSchema} :
    Ahead lex intent (gatedRaw lex catalog intent) catalog.schemas s ↔
      Ahead lex intent (fullRaw lex catalog intent) (survivors lex catalog intent) s := by
  have hsmall : ∀ s ∈ catalog.schemas, identityHit lex catalog intent s = false →
      gatedRaw lex catalog intent s ≤ OUT_OF_REACH := fun s _ hpruned =>
    (gatedRaw_of_pruned lex catalog intent hpruned).trans (by decide)
  rw [← ahead_filter_iff hsmall]
  exact ahead_congr fun s hs => gatedRaw_of_survivor lex catalog intent hs

/-- The gate is exact where the intent is blank, where it names a schema that its verb allows, and
otherwise where the schema ahead of the survivors is the one ahead of all. -/
theorem resolve_eq_iff_ahead :
    resolve lex catalog intent = resolveUngated lex catalog intent ↔
      trim intent = "" ∨ (∃ s ∈ catalog.schemas, Named lex intent s) ∨
      ∀ s, Ahead lex intent (fullRaw lex catalog intent) (survivors lex catalog intent) s ↔
        Ahead lex intent (fullRaw lex catalog intent) catalog.schemas s := by
  by_cases hintent : trim intent = ""
  · simp [resolve, resolveUngated, decision, hintent]
  · have hname : ∀ s ∈ catalog.schemas, ∀ t ∈ catalog.schemas, s.name = t.name → s = t :=
      fun s hs t ht => Catalog.name_injOn hs ht
    rw [resolve, resolveUngated, decision_eq_iff catalog.schemas_nodup hname hintent]
    by_cases hnamed : ∃ t ∈ catalog.schemas, Named lex intent t
    · obtain ⟨t, ht, hexact⟩ := hnamed
      have hleads : ∀ s, Leads 750 150 (millis lex intent (gatedRaw lex catalog intent)
          catalog.schemas) catalog.schemas s ↔ Leads 750 150 (millis lex intent
          (fullRaw lex catalog intent) catalog.schemas) catalog.schemas s := fun s =>
        (leads_iff_of_named ht hexact).trans (leads_iff_of_named ht hexact).symm
      exact iff_of_true hleads (.inr (.inl ⟨t, ht, hexact⟩))
    · have hnone : ∀ t ∈ catalog.schemas, ¬ Named lex intent t := fun t ht hexact =>
        hnamed ⟨t, ht, hexact⟩
      simp only [leads_iff_ahead hnone, ahead_gatedRaw_iff, hintent, hnamed, false_or]

/-- A pruned schema has its hits and the overlap, no verb. -/
theorem fullRaw_of_pruned (hmany : catalog.schemas.length ≤ 1000) {s : DescribedSchema}
    (h : identityHit lex catalog intent s = false) :
    fullRaw lex catalog intent s ≤ 300 + overlap lex intent s := by
  have hnone : ∀ v ∈ opTokens lex intent, names lex s v = false := by
    intro v hv
    by_contra hnamed
    have hhit := (identityHit_iff lex catalog intent hmany (s := s)).mpr
      ⟨v, hv, by simpa using hnamed⟩
    rw [h] at hhit
    cases hhit
  have hverb : verbBonus lex (opTokens lex intent).head? s = 0 := by
    refine if_neg ?_
    cases hhead : (opTokens lex intent).head? with
    | none => simp
    | some v => simp [hnone v (List.mem_of_mem_head? hhead)]
  have hzero : (nameZone lex catalog intent s).1 = 0 ∧ (keywordZone lex catalog intent s).1 = 0 := by
    simpa [identityHit] using h
  have hhits := hitsScore_le lex (opTokens lex intent) s
  have hbase : base lex catalog intent s = 0 := by
    rw [base, hzero.1, hzero.2, hverb]
    simp
  rw [fullRaw, hbase]
  omega

/-- Pruned schemas with little evidence make no difference. -/
theorem resolve_eq_resolveUngated_of_pruned (hpruned : ∀ s ∈ catalog.schemas,
    identityHit lex catalog intent s = false → fullRaw lex catalog intent s ≤ OUT_OF_REACH) :
    resolve lex catalog intent = resolveUngated lex catalog intent := by
  rw [resolve_eq_iff_ahead]
  exact .inr (.inr fun s => ahead_filter_iff hpruned)

/-- It is the overlap that makes the difference. -/
theorem resolve_eq_resolveUngated_of_overlap (hmany : catalog.schemas.length ≤ 1000)
    (hoverlap : ∀ s ∈ catalog.schemas, identityHit lex catalog intent s = false →
      overlap lex intent s ≤ 53) :
    resolve lex catalog intent = resolveUngated lex catalog intent := by
  refine resolve_eq_resolveUngated_of_pruned lex catalog intent fun s hs hpruned => ?_
  have hfull := fullRaw_of_pruned lex catalog intent hmany hpruned
  have hsmall := hoverlap s hs hpruned
  unfold OUT_OF_REACH
  omega

/-- The survivors and all schemas have the same one far ahead exactly when a survivor that is far
ahead of the others is far ahead of what was pruned too, and nothing pruned is far ahead of all. -/
theorem farAhead_survivors_iff {raw : DescribedSchema → Nat} :
    (∀ s, FarAhead raw (survivors lex catalog intent) s ↔ FarAhead raw catalog.schemas s) ↔
      ∀ p ∈ catalog.schemas, identityHit lex catalog intent p = false →
        (∀ s, FarAhead raw (survivors lex catalog intent) s →
          NON_EXACT_CAP * raw p < 700 * raw s) ∧ ¬ FarAhead raw catalog.schemas p := by
  constructor
  · intro hsame p hp hpruned
    have hout : p ∉ survivors lex catalog intent := by simp [survivors, hpruned]
    refine ⟨fun s hs => ?_, fun hfar => hout ((hsame p).mpr hfar).1⟩
    have hne : p ≠ s := fun heq => hout (heq ▸ hs.1)
    exact ((hsame s).mp hs).2.2 p hp hne
  · intro hpruned s
    constructor
    · intro hfar
      refine ⟨(List.mem_filter.mp hfar.1).1, hfar.2.1, fun t ht hne => ?_⟩
      cases hhit : identityHit lex catalog intent t with
      | false => exact (hpruned t ht hhit).1 s hfar
      | true => exact hfar.2.2 t (List.mem_filter.mpr ⟨ht, hhit⟩) hne
    · intro hfar
      have hhit : identityHit lex catalog intent s = true := by
        by_contra hout
        exact (hpruned s hfar.1 (by simpa using hout)).2 hfar
      refine ⟨List.mem_filter.mpr ⟨hfar.1, hhit⟩, hfar.2.1, fun t ht hne => ?_⟩
      exact hfar.2.2 t (List.mem_filter.mp ht).1 hne

/-- The gate is exact where the intent is blank or names a schema that its verb allows. Otherwise no
pruned schema may come near a survivor that is far ahead or be far ahead itself; with a click verb,
which caps most schemas, each must be harmless to what it allows. -/
theorem resolve_eq_resolveUngated_iff :
    resolve lex catalog intent = resolveUngated lex catalog intent ↔
      trim intent = "" ∨ (∃ s ∈ catalog.schemas, Named lex intent s) ∨
      if clickVerb lex intent then
        ∀ p ∈ catalog.schemas, identityHit lex catalog intent p = false →
          Harmless lex intent (fullRaw lex catalog intent) (survivors lex catalog intent)
            catalog.schemas p
      else
        ∀ p ∈ catalog.schemas, identityHit lex catalog intent p = false →
          (∀ s, FarAhead (fullRaw lex catalog intent) (survivors lex catalog intent) s →
            NON_EXACT_CAP * fullRaw lex catalog intent p < 700 * fullRaw lex catalog intent s) ∧
          ¬ FarAhead (fullRaw lex catalog intent) catalog.schemas p := by
  rw [resolve_eq_iff_ahead]
  refine or_congr_right (or_congr_right ?_)
  split_ifs with hverb
  · exact ahead_filter_iff_harmless
  · simp only [ahead_iff_farAhead (Bool.eq_false_iff.mpr hverb)]
    exact farAhead_survivors_iff lex catalog intent

end Resolve

/-- The overlap is the share of the candidate's words that stand in the query. -/
def wordLexicon : Lexicon :=
  { Lexicon.ascii with
    lexicalOverlap := fun query candidate =>
      let words := tokensIter .ascii (toAsciiLowercase candidate)
      let found := words.countP (tokensIter .ascii (toAsciiLowercase query)).contains
      some (.saturating (1000 * found / max words.length 1)) }

def night : OpSchema where
  name := "night"
  kind := .invoke
  effects := [.write]
  idempotent := true
  required := []
  args := []

def nightCatalog : Catalog where
  registry := Registry.new.insertValid night (by decide +kernel)
  description _ := "Switch to dark mode."
  keywords _ := ["dark mode"]

/-- A keyword of two words is no token of the intent, but its words are found by the overlap. -/
theorem resolve_darkMode :
    resolve wordLexicon nightCatalog "dark mode" = none ∧
      resolveUngated wordLexicon nightCatalog "dark mode" = some "night" := by
  decide +kernel

end InstinctResolve

end GpuiAgent
