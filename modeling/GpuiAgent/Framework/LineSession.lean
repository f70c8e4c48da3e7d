import Mathlib.Data.List.Basic

namespace GpuiAgent.Framework

/-- What a server makes of one input: pass over it, refuse it and stop, or serve a request. -/
inductive LineVerdict (θ ρ : Type*) where
  | skip
  | refuse (reply : ρ)
  | allow (request : θ)

/-- What a session does, by the number of the input: it hands a request to a service in some state,
or it replies. -/
inductive SessionEvent (τ θ ρ : Type*) where
  | handled (line : Nat) (state : τ) (request : θ)
  | reply (line : Nat) (resp : ρ)

namespace SessionEvent

variable {τ θ ρ : Type*}

def line : SessionEvent τ θ ρ → Nat
  | handled line _ _ => line
  | reply line _ => line

/-- The reply that an event writes for input `k`. -/
def replyTo (k : Nat) : SessionEvent τ θ ρ → Option ρ
  | handled _ _ _ => none
  | reply line resp => if line = k then some resp else none

end SessionEvent

open SessionEvent

section Serve

variable {ℓ τ θ ρ : Type*} (judge : ℓ → LineVerdict θ ρ) (answer : τ → Nat → θ → ρ × τ)
  (last : θ → ρ → Bool)

/-- The session over the inputs from number `k` on. It ends at a refusal and after a `last`
reply. -/
def serveLines (k : Nat) (state : τ) : List ℓ → List (SessionEvent τ θ ρ)
  | [] => []
  | l :: ls => match judge l with
    | .skip => serveLines (k + 1) state ls
    | .refuse resp => [.reply k resp]
    | .allow req =>
      let (resp, next) := answer state k req
      .handled k state req :: .reply k resp ::
        if last req resp then [] else serveLines (k + 1) next ls

variable {judge answer last}

section Step

variable {k : Nat} {state : τ} {l : ℓ} {ls : List ℓ}

theorem serveLines_skip (h : judge l = .skip) :
    serveLines judge answer last k state (l :: ls) =
      serveLines judge answer last (k + 1) state ls := by
  rw [serveLines, h]

theorem serveLines_refuse {resp : ρ} (h : judge l = .refuse resp) :
    serveLines judge answer last k state (l :: ls) = [.reply k resp] := by
  rw [serveLines, h]

theorem serveLines_allow {req : θ} (h : judge l = .allow req) :
    serveLines judge answer last k state (l :: ls) =
      .handled k state req :: .reply k (answer state k req).1 ::
        if last req (answer state k req).1 then []
        else serveLines judge answer last (k + 1) (answer state k req).2 ls := by
  rw [serveLines, h]

/-- A request that is handled is the one of the first input, or it is handled over the rest. -/
theorem handled_cons {n : Nat} {s : τ} {req : θ}
    (he : .handled n s req ∈ serveLines judge answer last k state (l :: ls)) :
    (judge l = .skip ∧ .handled n s req ∈ serveLines judge answer last (k + 1) state ls) ∨
      ∃ r, judge l = .allow r ∧ (n = k ∧ s = state ∧ req = r ∨
        last r (answer state k r).1 = false ∧
          .handled n s req ∈ serveLines judge answer last (k + 1) (answer state k r).2 ls) := by
  cases hj : judge l with
  | skip =>
    rw [serveLines_skip hj] at he
    exact .inl ⟨rfl, he⟩
  | refuse resp =>
    rw [serveLines_refuse hj] at he
    cases List.mem_singleton.mp he
  | allow r =>
    rw [serveLines_allow hj] at he
    simp only [List.mem_cons] at he
    refine .inr ⟨r, rfl, ?_⟩
    rcases he with he | he | he
    · exact .inl (SessionEvent.handled.inj he)
    · cases he
    · split_ifs at he with hlast
      · cases he
      · exact .inr ⟨Bool.eq_false_iff.mpr hlast, he⟩

end Step

/-- The events of the rest of a session are about the rest of its inputs. -/
theorem le_line {ls : List ℓ} : ∀ {k : Nat} {state : τ} {e : SessionEvent τ θ ρ},
    e ∈ serveLines judge answer last k state ls → k ≤ e.line := by
  induction ls with
  | nil =>
    intro k state e he
    cases he
  | cons l ls ih =>
    intro k state e he
    cases hj : judge l with
    | skip =>
      rw [serveLines_skip hj] at he
      have := ih he
      omega
    | refuse resp =>
      rw [serveLines_refuse hj] at he
      obtain rfl := List.mem_singleton.mp he
      exact Nat.le_refl k
    | allow req =>
      rw [serveLines_allow hj] at he
      simp only [List.mem_cons] at he
      rcases he with rfl | rfl | he
      · exact Nat.le_refl k
      · exact Nat.le_refl k
      · split_ifs at he
        · cases he
        · have := ih he
          omega

/-- A request that is handled was admitted, and nothing before it was refused. -/
theorem admitted_of_handled {ls : List ℓ} : ∀ {k n : Nat} {state s : τ} {req : θ},
    .handled n s req ∈ serveLines judge answer last k state ls →
    (∃ l, ls[n - k]? = some l ∧ judge l = .allow req) ∧
      ∀ j < n - k, ∃ l, ls[j]? = some l ∧ (judge l = .skip ∨ ∃ r, judge l = .allow r) := by
  induction ls with
  | nil =>
    intro k n state s req he
    cases he
  | cons l ls ih =>
    intro k n state s req he
    -- what holds of the rest, moved by one
    have shift (hn : k + 1 ≤ n) (hl : judge l = .skip ∨ ∃ r, judge l = .allow r)
        {state' : τ} (he : .handled n s req ∈ serveLines judge answer last (k + 1) state' ls) :
        (∃ l', (l :: ls)[n - k]? = some l' ∧ judge l' = .allow req) ∧
          ∀ j < n - k, ∃ l', (l :: ls)[j]? = some l' ∧
            (judge l' = .skip ∨ ∃ r, judge l' = .allow r) := by
      obtain ⟨hat, hbefore⟩ := ih he
      have hnum : n - k = n - (k + 1) + 1 := by omega
      rw [hnum]
      refine ⟨by simpa using hat, fun j hj => ?_⟩
      cases j with
      | zero => exact ⟨l, rfl, hl⟩
      | succ j =>
        have := hbefore j (by omega)
        simpa using this
    rcases handled_cons he with ⟨hj, he⟩ | ⟨r, hj, ⟨rfl, -, rfl⟩ | ⟨-, he⟩⟩
    · exact shift (le_line he) (.inl hj) he
    · refine ⟨⟨l, by simp, hj⟩, fun j hlt => ?_⟩
      omega
    · exact shift (le_line he) (.inr ⟨r, hj⟩) he

/-- A refused input gets at most its own reply, and nothing comes after it. -/
theorem refused_last {ls : List ℓ} : ∀ {k i : Nat} {state : τ} {l : ℓ} {resp : ρ},
    ls[i]? = some l → judge l = .refuse resp →
    let events := serveLines judge answer last k state ls
    (∀ e ∈ events, e.line ≤ k + i) ∧
      (events.filter (fun e => e.line = k + i) = [] ∨
        events.filter (fun e => e.line = k + i) = [.reply (k + i) resp]) := by
  induction ls with
  | nil =>
    intro k i state l resp hl
    simp at hl
  | cons head ls ih =>
    intro k i state l resp hl hj
    cases i with
    | zero =>
      obtain rfl : head = l := by simpa using hl
      rw [serveLines_refuse hj]
      simp [line]
    | succ i =>
      have hl : ls[i]? = some l := by simpa using hl
      have rest (state' : τ) := @ih (k + 1) i state' l resp hl hj
      have hnum : k + 1 + i = k + (i + 1) := by omega
      rw [hnum] at rest
      cases hhead : judge head with
      | skip =>
        rw [serveLines_skip hhead]
        exact rest state
      | refuse r =>
        rw [serveLines_refuse hhead]
        simp [line]
      | allow r =>
        obtain ⟨hle, hfilter⟩ := rest (answer state k r).2
        rw [serveLines_allow hhead]
        split_ifs
        · simp [line]
        · refine ⟨?_, ?_⟩
          · intro e he
            simp only [List.mem_cons] at he
            rcases he with rfl | rfl | he
            · exact Nat.le_add_right k (i + 1)
            · exact Nat.le_add_right k (i + 1)
            · exact hle e he
          · simpa [line] using hfilter

/-- The session ends at input `j` of `ls`: it refuses the input, or gives it a last reply. -/
def ClosesAt (judge : ℓ → LineVerdict θ ρ) (answer : τ → Nat → θ → ρ × τ) (last : θ → ρ → Bool)
    (k : Nat) (state : τ) (ls : List ℓ) (j : Nat) : Prop :=
  (∃ l resp, ls[j]? = some l ∧ judge l = .refuse resp) ∨
    ∃ s req, .handled (k + j) s req ∈ serveLines judge answer last k state ls ∧
      last req (answer s (k + j) req).1 = true

/-- An input with a request is handled, unless the session has ended before it. -/
theorem handled_of_admitted {ls : List ℓ} : ∀ {k i : Nat} {state : τ} {l : ℓ} {req : θ},
    ls[i]? = some l → judge l = .allow req →
      (∃ s, .handled (k + i) s req ∈ serveLines judge answer last k state ls) ∨
        ∃ j < i, ClosesAt judge answer last k state ls j := by
  induction ls with
  | nil =>
    intro k i state l req hl
    simp at hl
  | cons head ls ih =>
    intro k i state l req hl hj
    cases i with
    | zero =>
      obtain rfl : head = l := by simpa using hl
      left
      rw [serveLines_allow hj]
      exact ⟨state, List.mem_cons_self⟩
    | succ i =>
      have hl : ls[i]? = some l := by simpa using hl
      have hnum (n : Nat) : k + 1 + n = k + (n + 1) := by omega
      cases hhead : judge head with
      | refuse resp => exact .inr ⟨0, Nat.succ_pos i, .inl ⟨head, resp, rfl, hhead⟩⟩
      | skip =>
        have hsession : serveLines judge answer last k state (head :: ls) =
            serveLines judge answer last (k + 1) state ls := serveLines_skip hhead
        rcases @ih (k + 1) i state l req hl hj with ⟨s, hs⟩ | ⟨j, hlt, hclose⟩
        · exact .inl ⟨s, hsession ▸ hnum i ▸ hs⟩
        · refine .inr ⟨j + 1, Nat.succ_lt_succ hlt, hclose.imp_right ?_⟩
          rintro ⟨s, r, hmem, hlast⟩
          rw [hnum] at hmem hlast
          exact ⟨s, r, hsession ▸ hmem, hlast⟩
      | allow r =>
        by_cases hlast : last r (answer state k r).1 = true
        · refine .inr ⟨0, Nat.succ_pos i, .inr ⟨state, r, ?_, hlast⟩⟩
          rw [serveLines_allow hhead]
          exact List.mem_cons_self
        · have hrest {e : SessionEvent τ θ ρ}
              (he : e ∈ serveLines judge answer last (k + 1) (answer state k r).2 ls) :
              e ∈ serveLines judge answer last k state (head :: ls) := by
            rw [serveLines_allow hhead, if_neg hlast]
            exact List.mem_cons_of_mem _ (List.mem_cons_of_mem _ he)
          rcases @ih (k + 1) i (answer state k r).2 l req hl hj with
            ⟨s, hs⟩ | ⟨j, hlt, hclose⟩
          · exact .inl ⟨s, hrest (hnum i ▸ hs)⟩
          · refine .inr ⟨j + 1, Nat.succ_lt_succ hlt, hclose.imp_right ?_⟩
            rintro ⟨s, r', hmem, hlast'⟩
            rw [hnum] at hmem hlast'
            exact ⟨s, r', hrest hmem, hlast'⟩

/-- What every answer preserves holds of the state at every request that is handled. -/
theorem state_of_handled {P : τ → Prop} (step : ∀ state k req, P state → P (answer state k req).2)
    {ls : List ℓ} : ∀ {k n : Nat} {state s : τ} {req : θ}, P state →
    .handled n s req ∈ serveLines judge answer last k state ls → P s := by
  induction ls with
  | nil =>
    intro k n state s req _ he
    cases he
  | cons l ls ih =>
    intro k n state s req hP he
    rcases handled_cons he with ⟨-, he⟩ | ⟨r, -, ⟨-, rfl, -⟩ | ⟨-, he⟩⟩
    · exact ih hP he
    · exact hP
    · exact ih (step state k r hP) he

theorem replies_before {ls : List ℓ} {k n : Nat} {state : τ} (h : n < k) :
    (serveLines judge answer last k state ls).filterMap (replyTo n) = [] := by
  rw [List.filterMap_eq_nil_iff]
  intro e he
  have hle := le_line he
  cases e with
  | handled => rfl
  | reply m resp =>
    have hne : m ≠ n := by
      simp only [line] at hle
      omega
    simp [replyTo, hne]

/-- A request that is handled gets one reply, the service's answer. -/
theorem replies_of_handled {ls : List ℓ} : ∀ {k n : Nat} {state s : τ} {req : θ},
    .handled n s req ∈ serveLines judge answer last k state ls →
    (serveLines judge answer last k state ls).filterMap (replyTo n) = [(answer s n req).1] := by
  induction ls with
  | nil =>
    intro k n state s req he
    cases he
  | cons l ls ih =>
    intro k n state s req he
    rcases handled_cons he with ⟨hj, he⟩ | ⟨r, hj, ⟨rfl, rfl, rfl⟩ | ⟨hlast, he⟩⟩
    · rw [serveLines_skip hj]
      exact ih he
    · have hrest : (if last req (answer s n req).1 then [] else
          serveLines judge answer last (n + 1) (answer s n req).2 ls).filterMap (replyTo n) =
            [] := by
        split_ifs
        · rfl
        · exact replies_before (Nat.lt_succ_self n)
      rw [serveLines_allow hj]
      simp [List.filterMap_cons, replyTo, hrest]
    · have hne : k ≠ n := by
        have hle := le_line he
        simp only [line] at hle
        omega
      rw [serveLines_allow hj]
      simp [List.filterMap_cons, replyTo, hlast, hne, ih he]

end Serve

end GpuiAgent.Framework
