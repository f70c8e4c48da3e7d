import Mathlib.Data.Option.Basic
import Mathlib.Tactic.SplitIfs

namespace GpuiAgent.Framework

universe u

variable {ε ε' : Type*} {α β : Type u}

/-- A sequence succeeds when both of its parts do. -/
theorem bind_eq_ok {x : Except ε α} {f : α → Except ε β} {b : β} :
    x >>= f = .ok b ↔ ∃ a, x = .ok a ∧ f a = .ok b := by
  cases x with
  | error e => simp [bind, Except.bind]
  | ok a => simp [bind, Except.bind]

@[simp] theorem mapError_eq_ok {g : ε → ε'} {x : Except ε α} {a : α} :
    x.mapError g = .ok a ↔ x = .ok a := by
  cases x <;> simp [Except.mapError]

/-- The value of an option, or the error. -/
def okOr (e : ε) : Option α → Except ε α
  | some a => .ok a
  | none => .error e

@[simp] theorem okOr_eq_ok {e : ε} {x : Option α} {a : α} : okOr e x = .ok a ↔ x = some a := by
  cases x <;> simp [okOr]

/-- Go on only where `b` holds. -/
def require (b : Bool) (e : ε) : Except ε Unit := if b then .ok () else .error e

@[simp] theorem require_eq_ok {b : Bool} {e : ε} {u : Unit} : require b e = .ok u ↔ b = true := by
  cases b <;> simp [require]

/-- A refusal in front of the rest of a sequence. -/
theorem refuse_eq_ok {p : Prop} [Decidable p] {e : ε} {f : α → Except ε β} {x : Except ε β}
    {b : β} : (if p then throw e >>= f else x) = .ok b ↔ ¬ p ∧ x = .ok b := by
  split_ifs with h
  · exact iff_of_false nofun fun hx => hx.1 h
  · exact (and_iff_right h).symm

section Checks

variable {x y : Except ε Unit}

/-- Two checks in sequence. -/
theorem andThen_eq_ok : (x >>= fun _ => y) = .ok () ↔ x = .ok () ∧ y = .ok () := by
  cases x with
  | error e => simp [bind, Except.bind]
  | ok _ => simp [bind, Except.bind]

theorem forM_eq_ok {α : Type*} {f : α → Except ε Unit} (xs : List α) :
    xs.forM f = .ok () ↔ ∀ x ∈ xs, f x = .ok () := by
  induction xs with
  | nil => exact iff_of_true rfl fun x hx => absurd hx List.not_mem_nil
  | cons x xs ih =>
    have hcons : (x :: xs).forM f = f x >>= fun _ => xs.forM f := rfl
    rw [hcons, andThen_eq_ok, List.forall_mem_cons, ih]

/-- A condition that fails, and the checks after it. -/
theorem throwIf_eq_ok {p : Prop} [Decidable p] {e : ε} :
    (if p then .error e else x) = .ok () ↔ ¬ p ∧ x = .ok () := by
  split_ifs with h
  · simp [h]
  · simp [h]

end Checks

/-- A map whose steps all succeed. -/
theorem mapM_ok {α β : Type u} {f : α → Except ε β} (g : α → β) {xs : List α}
    (h : ∀ x ∈ xs, f x = .ok (g x)) : xs.mapM f = .ok (xs.map g) := by
  induction xs with
  | nil => rfl
  | cons x xs ih =>
    rw [List.mapM_cons, h x List.mem_cons_self, ih fun y hy => h y (List.mem_cons_of_mem _ hy)]
    rfl

/-- A map succeeds when each of its steps does. -/
theorem mapM_isOk_iff {α β : Type u} {f : α → Except ε β} {xs : List α} :
    (∃ ys, xs.mapM f = .ok ys) ↔ ∀ x ∈ xs, ∃ y, f x = .ok y := by
  induction xs with
  | nil => exact iff_of_true ⟨[], rfl⟩ fun x hx => absurd hx List.not_mem_nil
  | cons x xs ih =>
    rw [List.mapM_cons, List.forall_mem_cons, ← ih]
    constructor
    · intro ⟨ys, h⟩
      obtain ⟨y, hy, h⟩ := bind_eq_ok.mp h
      obtain ⟨ys, hys, -⟩ := bind_eq_ok.mp h
      exact ⟨⟨y, hy⟩, ys, hys⟩
    · intro ⟨⟨y, hy⟩, ys, hys⟩
      exact ⟨y :: ys, by rw [hy, hys]; rfl⟩

/-- A map that succeeds keeps the length. -/
theorem length_of_mapM_eq_some {α β : Type u} {f : α → Option β} {xs : List α} {ys : List β}
    (h : xs.mapM f = some ys) : ys.length = xs.length := by
  induction xs generalizing ys with
  | nil =>
    obtain rfl := Option.some.inj h
    rfl
  | cons x xs ih =>
    rw [List.mapM_cons] at h
    obtain ⟨y, -, h⟩ := Option.bind_eq_some_iff.mp h
    obtain ⟨ys', hys, h⟩ := Option.bind_eq_some_iff.mp h
    obtain rfl := Option.some.inj h
    rw [List.length_cons, List.length_cons, ih hys]

/-- A fold whose steps keep an invariant or stop gets to the end with the invariant, or stops at one
step after the invariant held up to it. -/
theorem foldlM_cases {σ : Type u} {α : Type*} (f : σ → α → Except ε σ) (inv : List α → σ → Prop)
    (stops : List α → α → ε → Prop) (xs : List α) :
    ∀ {done : List α} {s : σ}, (∀ done, ∀ x ∈ xs, ∀ s, inv done s →
        (∃ s', f s x = .ok s' ∧ inv (done ++ [x]) s') ∨
          ∃ e, f s x = .error e ∧ stops done x e) →
      inv done s →
      (∃ s', xs.foldlM f s = .ok s' ∧ inv (done ++ xs) s') ∨
        ∃ pre x post e, xs = pre ++ x :: post ∧ xs.foldlM f s = .error e ∧
          stops (done ++ pre) x e := by
  induction xs with
  | nil =>
    intro done s _ h
    exact .inl ⟨s, rfl, by rwa [List.append_nil]⟩
  | cons x xs ih =>
    intro done s step h
    obtain ⟨s', hs', h'⟩ | ⟨e, he, hstop⟩ := step done x List.mem_cons_self s h
    · have hrest := ih (fun done y hy => step done y (List.mem_cons_of_mem _ hy)) h'
      rw [List.foldlM_cons, hs']
      obtain ⟨t, ht, hinv⟩ | ⟨pre, y, post, e, rfl, he, hstop⟩ := hrest
      · exact .inl ⟨t, ht, by rwa [List.append_assoc, List.singleton_append] at hinv⟩
      · refine .inr ⟨x :: pre, y, post, e, rfl, he, ?_⟩
        rwa [List.append_assoc, List.singleton_append] at hstop
    · refine .inr ⟨[], x, xs, e, rfl, ?_, by rwa [List.append_nil]⟩
      rw [List.foldlM_cons, he]
      rfl

section Corresponds

variable {σ τ : Type u} (R : σ → τ → Prop) (E : ε → ε' → Prop)

/-- Both results are values that correspond, or both are errors that do. -/
def Corresponds : Except ε σ → Except ε' τ → Prop
  | .ok s, .ok t => R s t
  | .error e, .error e' => E e e'
  | _, _ => False

/-- Folds correspond whose steps do. -/
theorem foldlM_corresponds {α : Type*} {f : σ → α → Except ε σ} {g : τ → α → Except ε' τ}
    (step : ∀ x s t, R s t → Corresponds R E (f s x) (g t x)) (xs : List α) :
    ∀ {s : σ} {t : τ}, R s t → Corresponds R E (xs.foldlM f s) (xs.foldlM g t) := by
  induction xs with
  | nil => exact fun h => h
  | cons x xs ih =>
    intro s t h
    have hx := step x s t h
    rw [List.foldlM_cons, List.foldlM_cons]
    cases hf : f s x with
    | error e =>
      cases hg : g t x with
      | error e' =>
        rw [hf, hg] at hx
        exact hx
      | ok t' => simp [hf, hg, Corresponds] at hx
    | ok s' =>
      cases hg : g t x with
      | error e' => simp [hf, hg, Corresponds] at hx
      | ok t' =>
        rw [hf, hg] at hx
        exact ih hx

end Corresponds

end GpuiAgent.Framework
