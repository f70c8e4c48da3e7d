import Mathlib.Data.Option.Basic

namespace GpuiAgent.Framework

section Rounds

variable {σ ρ : Type*}

/-- At most `fuel` rounds of a loop: a round goes on in a next state or comes to a result. -/
def runLoop (round : σ → σ ⊕ ρ) : Nat → σ → Option ρ
  | 0, _ => none
  | fuel + 1, s => match round s with
    | .inl s' => runLoop round fuel s'
    | .inr r => some r

variable {round : σ → σ ⊕ ρ}

/-- A loop whose rounds lower a rank comes to a result. -/
theorem runLoop_isSome (rank : σ → Nat) (lower : ∀ s s', round s = .inl s' → rank s' < rank s)
    {fuel : Nat} {s : σ} (h : rank s < fuel) : (runLoop round fuel s).isSome := by
  induction fuel generalizing s with
  | zero => omega
  | succ fuel ih =>
    cases hr : round s with
    | inl s' =>
      have hs' := lower s s' hr
      simpa [runLoop, hr] using ih (s := s') (by omega)
    | inr r => simp [runLoop, hr]

/-- More rounds than it takes change nothing. -/
theorem runLoop_le {fuel fuel' : Nat} {s : σ} {r : ρ} (h : runLoop round fuel s = some r)
    (hle : fuel ≤ fuel') : runLoop round fuel' s = some r := by
  induction fuel generalizing s fuel' with
  | zero => simp [runLoop] at h
  | succ fuel ih =>
    obtain ⟨n, rfl⟩ : ∃ n, fuel' = n + 1 := ⟨fuel' - 1, by omega⟩
    cases hr : round s with
    | inl s' =>
      simp only [runLoop, hr] at h ⊢
      exact ih h (by omega)
    | inr r' => simpa [runLoop, hr] using h

/-- What the rounds keep holds where the loop comes to its result. -/
theorem runLoop_inv (inv : σ → Prop) {post : ρ → Prop}
    (next : ∀ s s', inv s → round s = .inl s' → inv s')
    (stop : ∀ s r, inv s → round s = .inr r → post r) {fuel : Nat} {s : σ} {r : ρ} (h : inv s)
    (hrun : runLoop round fuel s = some r) : post r := by
  induction fuel generalizing s with
  | zero => simp [runLoop] at hrun
  | succ fuel ih =>
    cases hr : round s with
    | inl s' =>
      simp only [runLoop, hr] at hrun
      exact ih (next s s' h hr) hrun
    | inr r' =>
      simp only [runLoop, hr, Option.some.injEq] at hrun
      exact hrun ▸ stop s r' h hr

end Rounds

end GpuiAgent.Framework
