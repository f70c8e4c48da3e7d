import GpuiAgent.Framework.LineSession
import Mathlib.Logic.Relation

namespace GpuiAgent.Framework

section Serve

variable {α β κ : Type*} (serve : κ → α → Option β × Option κ)

/-- The replies of a server to its inputs in turn, and its state unless it has stopped. A stopped
server takes no further input. -/
def serveAll : Option κ → List α → List β × Option κ
  | none, _ => ([], none)
  | some s, [] => ([], some s)
  | some s, x :: xs =>
    let (reply, next) := serve s x
    let (replies, final) := serveAll next xs
    (reply.toList ++ replies, final)

@[simp] theorem serveAll_none (xs : List α) : serveAll serve none xs = ([], none) := by
  unfold serveAll
  rfl

@[simp] theorem serveAll_nil (s : Option κ) : serveAll serve s [] = ([], s) := by
  cases s <;> rfl

theorem serveAll_cons (s : κ) (x : α) (xs : List α) :
    serveAll serve (some s) (x :: xs) =
      ((serve s x).1.toList ++ (serveAll serve (serve s x).2 xs).1,
        (serveAll serve (serve s x).2 xs).2) := rfl

theorem serveAll_append (xs ys : List α) : ∀ s : Option κ, serveAll serve s (xs ++ ys) =
    ((serveAll serve s xs).1 ++ (serveAll serve (serveAll serve s xs).2 ys).1,
      (serveAll serve (serveAll serve s xs).2 ys).2) := by
  induction xs with
  | nil => simp
  | cons x xs ih =>
    intro s
    cases s with
    | none => simp
    | some s => simp [serveAll_cons, ih]

/-- A server that has not stopped after some inputs had not stopped before any of them. -/
theorem serveAll_isSome_left {s : Option κ} {xs ys : List α}
    (h : (serveAll serve s (xs ++ ys)).2.isSome = true) : (serveAll serve s xs).2.isSome = true := by
  rw [serveAll_append] at h
  cases hxs : (serveAll serve s xs).2 with
  | none => simp [hxs] at h
  | some s' => rfl

end Serve

/-- A client that writes all its inputs before it reads a reply, and a server, with a queue in each
direction between them. -/
structure Pipe (α β κ : Type*) where
  unsent : List α
  up : List α := []
  server : Option κ
  down : List β := []
  got : List β := []

namespace Pipe

variable {α β κ : Type*} (serve : κ → α → Option β × Option κ)

/-- One step of either party, in whatever order they come. -/
inductive Step : Pipe α β κ → Pipe α β κ → Prop where
  | write {p : Pipe α β κ} {x : α} {xs : List α} :
    p.unsent = x :: xs → Step p { p with unsent := xs, up := p.up ++ [x] }
  | serve {p : Pipe α β κ} {x : α} {xs : List α} {s : κ} :
    p.up = x :: xs → p.server = some s →
      Step p { p with up := xs, server := (serve s x).2, down := p.down ++ (serve s x).1.toList }
  | read {p : Pipe α β κ} {y : β} {ys : List β} :
    p.unsent = [] → p.down = y :: ys → Step p { p with down := ys, got := p.got ++ [y] }

/-- Neither party has anything left to do. -/
def Settled (p : Pipe α β κ) : Prop := ∀ q, ¬ Step serve p q

/-- All the replies there will be, and the server at the end. -/
def outcome (p : Pipe α β κ) : List β × Option κ :=
  let (replies, final) := serveAll serve p.server (p.up ++ p.unsent)
  (p.got ++ p.down ++ replies, final)

variable {serve} {p q : Pipe α β κ}

theorem Step.outcome_eq (h : Step serve p q) : q.outcome serve = p.outcome serve := by
  obtain ⟨unsent, up, server, down, got⟩ := p
  cases h with
  | write hunsent =>
    obtain rfl := hunsent
    simp [outcome]
  | serve hup hserver =>
    obtain rfl := hup
    obtain rfl := hserver
    simp [outcome, serveAll_cons]
  | read hunsent hdown =>
    obtain rfl := hdown
    simp [outcome]

theorem outcome_eq_of_run (h : Relation.ReflTransGen (Step serve) p q) :
    q.outcome serve = p.outcome serve := by
  induction h with
  | refl => rfl
  | tail _ step ih => exact step.outcome_eq.trans ih

/-- Once nothing is left to do, the client has every reply. -/
theorem Settled.outcome_eq (h : p.Settled serve) : p.outcome serve = (p.got, p.server) := by
  obtain ⟨unsent, up, server, down, got⟩ := p
  have hunsent : unsent = [] := by
    cases unsent with
    | nil => rfl
    | cons x xs => exact absurd (.write rfl) (h _)
  have hdown : down = [] := by
    cases down with
    | nil => rfl
    | cons y ys => exact absurd (.read hunsent rfl) (h _)
  subst hunsent hdown
  cases server with
  | none => simp [outcome]
  | some s =>
    cases up with
    | nil => simp [outcome]
    | cons x xs => exact absurd (.serve rfl rfl) (h _)

/-- Every step takes an input or a reply further. -/
def toDo (p : Pipe α β κ) : Nat := 3 * p.unsent.length + 2 * p.up.length + p.down.length

theorem Step.toDo_lt (h : Step serve p q) : q.toDo < p.toDo := by
  cases h with
  | write hunsent =>
    simp only [toDo, hunsent, List.length_cons, List.length_append, List.length_nil]
    omega
  | @serve x xs s hup hserver =>
    have hone : (serve s x).1.toList.length ≤ 1 := by
      cases (serve s x).1 <;> simp
    simp only [toDo, hup, List.length_cons, List.length_append]
    omega
  | read hunsent hdown =>
    simp only [toDo, hdown, List.length_cons]
    omega

/-- No order of steps goes on for ever. -/
theorem exists_settled (p : Pipe α β κ) :
    ∃ q, Relation.ReflTransGen (Step serve) p q ∧ q.Settled serve := by
  induction hn : p.toDo using Nat.strongRecOn generalizing p with
  | ind n ih =>
    by_cases h : p.Settled serve
    · exact ⟨p, .refl, h⟩
    · obtain ⟨q, hq⟩ : ∃ q, Step serve p q := by
        by_contra hnone
        exact h fun q hq => hnone ⟨q, hq⟩
      obtain ⟨r, hr, hsettled⟩ := ih q.toDo (hn ▸ hq.toDo_lt) q rfl
      exact ⟨r, .head hq hr, hsettled⟩

/-- Whatever the order of steps, the client ends up with the replies to its inputs in turn. -/
theorem got_of_run {xs : List α} {s : κ}
    (h : Relation.ReflTransGen (Step serve) { unsent := xs, server := some s } p)
    (hsettled : p.Settled serve) : (p.got, p.server) = serveAll serve (some s) xs := by
  rw [← hsettled.outcome_eq, outcome_eq_of_run h]
  simp [outcome]

end Pipe

section Session

variable {ℓ τ θ ρ : Type*} (judge : ℓ → LineVerdict θ ρ) (answer : τ → Nat → θ → ρ × τ)
  (last : θ → ρ → Bool)

/-- One input of a session in some state, with the number of the input. -/
def serveLine (s : Nat × τ) (l : ℓ) : Option ρ × Option (Nat × τ) :=
  match judge l with
  | .skip => (none, some (s.1 + 1, s.2))
  | .refuse resp => (some resp, none)
  | .allow req =>
    let (resp, next) := answer s.2 s.1 req
    (some resp, if last req resp then none else some (s.1 + 1, next))

/-- The reply of an event, if it is one. -/
def SessionEvent.resp : SessionEvent τ θ ρ → Option ρ
  | handled _ _ _ => none
  | reply _ resp => some resp

variable {judge answer last}

theorem serveLine_skip {s : Nat × τ} {l : ℓ} (h : judge l = .skip) :
    serveLine judge answer last s l = (none, some (s.1 + 1, s.2)) := by
  rw [serveLine, h]

theorem serveLine_refuse {s : Nat × τ} {l : ℓ} {resp : ρ} (h : judge l = .refuse resp) :
    serveLine judge answer last s l = (some resp, none) := by
  rw [serveLine, h]

theorem serveLine_allow {s : Nat × τ} {l : ℓ} {req : θ} (h : judge l = .allow req) :
    serveLine judge answer last s l = (some (answer s.2 s.1 req).1,
      if last req (answer s.2 s.1 req).1 then none
      else some (s.1 + 1, (answer s.2 s.1 req).2)) := by
  rw [serveLine, h]

/-- Served input by input, a session gives the replies that it gives over all of them. -/
theorem serveAll_serveLine (ls : List ℓ) : ∀ (k : Nat) (state : τ),
    (serveAll (serveLine judge answer last) (some (k, state)) ls).1 =
      (serveLines judge answer last k state ls).filterMap SessionEvent.resp := by
  induction ls with
  | nil => exact fun _ _ => rfl
  | cons l ls ih =>
    intro k state
    rw [serveAll_cons]
    cases hj : judge l with
    | skip =>
      rw [serveLine_skip hj, serveLines_skip hj]
      exact ih (k + 1) state
    | refuse resp =>
      rw [serveLine_refuse hj, serveLines_refuse hj, serveAll_none]
      rfl
    | allow req =>
      rw [serveLine_allow hj, serveLines_allow hj]
      dsimp only
      split_ifs with hlast
      · rw [serveAll_none]
        rfl
      · rw [ih (k + 1) (answer state k req).2]
        rfl

end Session

end GpuiAgent.Framework
