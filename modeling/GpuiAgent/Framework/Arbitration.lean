import Mathlib.Data.List.Sort

namespace GpuiAgent.Framework

variable {ι : Type*}

/-- The strongest of some scored options, where it has at least `floor` and is at least `margin`
ahead of the next one. -/
def arbitrate (floor margin : Nat) (options : List (ι × Nat)) : Option ι :=
  match options.insertionSort fun a b => b.2 ≤ a.2 with
  | [] => none
  | [top] => if floor ≤ top.2 then some top.1 else none
  | top :: second :: _ =>
    if floor ≤ top.2 ∧ second.2 + margin ≤ top.2 then some top.1 else none

/-- What is ranked first is the option that all the others are behind. -/
theorem top_eq_of_ahead {margin s : Nat} (hmargin : 0 < margin) {i : ι} {top : ι × Nat}
    {tail rest : List (ι × Nat)} (hsorted : (top :: tail).Pairwise fun a b => b.2 ≤ a.2)
    (hperm : (top :: tail).Perm ((i, s) :: rest)) (hrest : ∀ o ∈ rest, o.2 + margin ≤ s) :
    top = (i, s) := by
  by_contra hne
  have htop := hrest top (List.mem_of_ne_of_mem hne (hperm.mem_iff.mp List.mem_cons_self))
  have hmem : (i, s) ∈ tail :=
    List.mem_of_ne_of_mem (Ne.symm hne) (hperm.mem_iff.mpr List.mem_cons_self)
  have hle := List.rel_of_pairwise_cons hsorted hmem
  dsimp only at hle
  omega

/-- An option is chosen exactly when all the others are a margin behind it. -/
theorem arbitrate_eq_some_iff {floor margin : Nat} (hmargin : 0 < margin)
    {options : List (ι × Nat)} {i : ι} : arbitrate floor margin options = some i ↔
      ∃ s rest, options.Perm ((i, s) :: rest) ∧ floor ≤ s ∧ ∀ o ∈ rest, o.2 + margin ≤ s := by
  have hperm := List.perm_insertionSort (fun a b : ι × Nat => b.2 ≤ a.2) options
  have hsorted := List.pairwise_insertionSort (fun a b : ι × Nat => b.2 ≤ a.2) options
  unfold arbitrate
  generalize options.insertionSort (fun a b => b.2 ≤ a.2) = ranked at hperm hsorted
  constructor
  · intro h
    match ranked with
    | [] => cases h
    | [top] =>
      dsimp only at h
      split_ifs at h with hfloor
      obtain rfl := Option.some_inj.mp h
      exact ⟨top.2, [], hperm.symm, hfloor, fun o ho => absurd ho List.not_mem_nil⟩
    | top :: second :: rest =>
      dsimp only at h
      split_ifs at h with hahead
      obtain rfl := Option.some_inj.mp h
      refine ⟨top.2, second :: rest, hperm.symm, hahead.1, fun o ho => ?_⟩
      obtain rfl | ho := List.mem_cons.mp ho
      · exact hahead.2
      · have hle := List.rel_of_pairwise_cons (List.pairwise_cons.mp hsorted).2 ho
        omega
  · intro ⟨s, rest, hoptions, hfloor, hrest⟩
    have hranked : ranked.Perm ((i, s) :: rest) := hperm.trans hoptions
    match ranked with
    | [] => cases hranked.symm.eq_nil
    | top :: tail =>
      obtain rfl := top_eq_of_ahead hmargin hsorted hranked hrest
      have htail : tail.Perm rest := hranked.cons_inv
      match tail with
      | [] => exact if_pos hfloor
      | second :: others =>
        exact if_pos ⟨hfloor, hrest second (htail.mem_iff.mp List.mem_cons_self)⟩

variable {α : Type*}

/-- An element has at least `floor` and is a margin ahead of all the others. -/
def Leads (floor margin : Nat) (score : α → Nat) (field : List α) (a : α) : Prop :=
  a ∈ field ∧ floor ≤ score a ∧ ∀ b ∈ field, b ≠ a → score b + margin ≤ score a

section Field

variable [DecidableEq ι] {floor margin : Nat} {name : α → ι} {score : α → Nat} {keep : α → Bool}
  {field : List α}

/-- What is chosen from a field is the name of its leader, also where elements that could not lead
are dropped. -/
theorem arbitrate_map_eq_some_iff (hmargin : 0 < margin) (hnodup : field.Nodup)
    (hname : ∀ a ∈ field, ∀ b ∈ field, name a = name b → a = b)
    (hdropped : ∀ a ∈ field, keep a = false → score a + margin ≤ floor) {i : ι} :
    arbitrate floor margin ((field.filter keep).map fun a => (name a, score a)) = some i ↔
      ∃ a, name a = i ∧ Leads floor margin score field a := by
  rw [arbitrate_eq_some_iff hmargin]
  constructor
  · intro ⟨s, rest, hperm, hfloor, hrest⟩
    obtain ⟨a, ha, heq⟩ := List.mem_map.mp (hperm.mem_iff.mpr List.mem_cons_self)
    obtain ⟨rfl, rfl⟩ := Prod.mk.inj heq
    have hfield := (List.mem_filter.mp ha).1
    refine ⟨a, rfl, hfield, hfloor, fun b hb hne => ?_⟩
    cases hkeep : keep b with
    | false =>
      have hlow := hdropped b hb hkeep
      omega
    | true =>
      -- a kept element is the chosen one or one of the rest
      have hmem : (name b, score b) ∈ (name a, score a) :: rest :=
        hperm.mem_iff.mp (List.mem_map.mpr ⟨b, List.mem_filter.mpr ⟨hb, hkeep⟩, rfl⟩)
      obtain heq | hmem := List.mem_cons.mp hmem
      · exact absurd (hname b hb a hfield (congrArg Prod.fst heq)) hne
      · exact hrest _ hmem
  · intro ⟨a, hi, ha, hfloor, hahead⟩
    subst hi
    have hkeep : keep a = true := by
      by_contra hdrop
      have hlow := hdropped a ha (by simpa using hdrop)
      omega
    have hmem : (name a, score a) ∈ (field.filter keep).map fun a => (name a, score a) :=
      List.mem_map.mpr ⟨a, List.mem_filter.mpr ⟨ha, hkeep⟩, rfl⟩
    have hoptions : ((field.filter keep).map fun a => (name a, score a)).Nodup := by
      refine List.Nodup.map_on ?_ (hnodup.filter _)
      intro b hb c hc heq
      exact hname b (List.mem_filter.mp hb).1 c (List.mem_filter.mp hc).1 (congrArg Prod.fst heq)
    refine ⟨score a, _, List.perm_cons_erase hmem, hfloor, fun o ho => ?_⟩
    obtain ⟨hne, hmem⟩ := hoptions.mem_erase_iff.mp ho
    obtain ⟨b, hb, rfl⟩ := List.mem_map.mp hmem
    exact hahead b (List.mem_filter.mp hb).1 fun heq => hne (heq ▸ rfl)

end Field

end GpuiAgent.Framework
