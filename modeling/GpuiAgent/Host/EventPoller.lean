import GpuiAgent.Framework.Run
import GpuiAgent.Host.EventRing

namespace GpuiAgent

open Framework

inductive PollerOp where
  | push (level : EventLevel) (target message : String)
  | poll (limit : Nat)
  deriving DecidableEq

def PollerOp.isPush : PollerOp → Bool
  | push .. => true
  | poll _ => false

/-- A ring and one poller of it, which moves its cursor to the `latest` of each reply. `pushed` is
everything the ring was given. -/
structure Poller where
  ring : EventRing
  pushed : List AgentEvent := []
  cursor : Nat := 0
  received : List AgentEvent := []
  lagged : Bool := false

namespace Poller

def step (s : Poller) : PollerOp → Poller
  | .push level target message =>
    { s with
      ring := s.ring.push level target message
      pushed := s.pushed ++ [⟨s.ring.next, level, target, message⟩] }
  | .poll limit =>
    let reply := s.ring.since (some s.cursor) limit
    { s with
      cursor := reply.latest
      received := s.received ++ reply.events
      lagged := s.lagged || reply.lagged }

def run (capacity : Nat) (ops : List PollerOp) : Poller :=
  ops.foldl step { ring := .new capacity }

/-- Up to the cursor everything was received, once and in order, or the poller was told of a gap. -/
def NoSilentLoss (s : Poller) : Prop :=
  s.lagged = true ∨ s.received = s.pushed.filter fun e => e.seq ≤ s.cursor

instance (s : Poller) : Decidable s.NoSilentLoss := inferInstanceAs (Decidable (_ ∨ _))

/-- How many events were pushed after the cursor. -/
def unread (s : Poller) : Nat := (s.pushed.filter fun e => s.cursor < e.seq).length

structure Inv (s : Poller) : Prop where
  capacity : 0 < s.ring.capacity
  retains : s.ring.Retains s.pushed
  cursor : s.cursor ≤ s.pushed.length

theorem run_concat (capacity : Nat) (ops : List PollerOp) (op : PollerOp) :
    run capacity (ops ++ [op]) = (run capacity ops).step op := by
  simp [run, List.foldl_append]

theorem filter_seq_le {log : List AgentEvent}
    (h : log.map AgentEvent.seq = List.range' 1 log.length) (cursor : Nat) :
    log.filter (fun e => e.seq ≤ cursor) = log.take cursor := by
  induction log using List.reverseRecOn with
  | nil => simp
  | append_singleton log e ih =>
    rw [List.map_append, List.length_append, List.length_singleton, List.range'_concat] at h
    obtain ⟨hlog, he⟩ := List.append_inj h (by simp)
    have hseq : e.seq = log.length + 1 := by simpa [Nat.add_comm] using he
    rw [List.filter_append, ih hlog, List.take_append]
    congr 1
    by_cases hc : log.length + 1 ≤ cursor
    · simp [hseq, hc, List.take_of_length_le (show [e].length ≤ cursor - log.length by simp; omega)]
    · simp [hseq, hc, show cursor - log.length = 0 by omega]

section Step

variable {s : Poller} (h : s.Inv)

include h

theorem Inv.unread_eq : s.unread = s.pushed.length - s.cursor := by
  have hd := EventRing.filter_seq_lt h.retains.seqs 0 s.cursor
  rw [List.drop_zero, Nat.zero_max] at hd
  rw [unread, hd, List.length_drop]

theorem Inv.read_eq : s.pushed.filter (fun e => e.seq ≤ s.cursor) = s.pushed.take s.cursor :=
  filter_seq_le h.retains.seqs s.cursor

theorem Inv.push (hfit : s.pushed.length + 2 < 2 ^ 64) (level : EventLevel)
    (target message : String) : (s.step (.push level target message)).Inv where
  capacity := h.capacity
  retains := EventRing.push_retains h.retains hfit level target message
  cursor := by
    have := h.cursor
    simp only [step, List.length_append, List.length_singleton]
    omega

theorem NoSilentLoss.push (hs : s.NoSilentLoss) (level : EventLevel) (target message : String) :
    (s.step (.push level target message)).NoSilentLoss := by
  rcases hs with hl | hr
  · exact Or.inl hl
  · have hcur := h.cursor
    have hnext := h.retains.next
    right
    simp only [step, List.filter_append, hr]
    rw [List.filter_cons_of_neg (by simp; omega)]
    simp

theorem Inv.poll_eq (limit : Nat) : s.step (.poll limit) =
    { s with
      cursor := s.pushed.length
      received := s.received ++
        (s.pushed.drop (max (s.pushed.length - s.ring.capacity) s.cursor)).take
          (min limit s.ring.capacity)
      lagged := s.lagged || decide (s.cursor < s.pushed.length - s.ring.capacity) } := by
  have hcur := h.cursor
  have hfit := h.retains.fits
  rw [step, h.retains.since_spec h.capacity (by omega)]

theorem Inv.poll (limit : Nat) : (s.step (.poll limit)).Inv := by
  rw [h.poll_eq]
  exact ⟨h.capacity, h.retains, le_rfl⟩

/-- A poll keeps the account exactly when it is already lost, becomes lost by eviction, or the page
holds every unread event. -/
theorem Inv.noSilentLoss_poll (hs : s.NoSilentLoss) (limit : Nat) :
    (s.step (.poll limit)).NoSilentLoss ↔
      s.lagged = true ∨ s.unread ≤ limit ∨ s.ring.capacity < s.unread := by
  have hp := (h.poll limit).read_eq
  have hcur := h.cursor
  rw [h.unread_eq, NoSilentLoss, hp, h.poll_eq]
  simp only [Bool.or_eq_true, decide_eq_true_eq, List.take_length]
  by_cases hl : s.lagged = true
  · simp [hl]
  · by_cases hev : s.cursor < s.pushed.length - s.ring.capacity
    · have : s.ring.capacity < s.pushed.length - s.cursor := by omega
      simp [hev, this]
    · have hno : ¬ s.ring.capacity < s.pushed.length - s.cursor := by omega
      have hl' : s.lagged = false := Bool.eq_false_iff.mpr hl
      have hread : s.received = s.pushed.take s.cursor := by
        rw [← h.read_eq]
        exact hs.resolve_left hl
      simp only [hl', hev, hno, Bool.false_eq_true, false_or, or_false, hread,
        show max (s.pushed.length - s.ring.capacity) s.cursor = s.cursor by omega]
      constructor
      · intro he
        have hlen := congrArg List.length he
        simp only [List.length_append, List.length_take, List.length_drop] at hlen
        omega
      · intro hle
        have hall : (s.pushed.drop s.cursor).length ≤ min limit s.ring.capacity := by
          rw [List.length_drop]
          omega
        rw [List.take_of_length_le hall, List.take_append_drop]

end Step

section Run

variable {capacity : Nat} (hcap : 0 < capacity)

include hcap

theorem run_inv (ops : List PollerOp) (hfit : (ops.filter PollerOp.isPush).length + 1 < 2 ^ 64) :
    (run capacity ops).Inv ∧
      (run capacity ops).pushed.length = (ops.filter PollerOp.isPush).length := by
  induction ops using List.reverseRecOn with
  | nil => exact ⟨⟨hcap, EventRing.new_retains capacity, le_rfl⟩, rfl⟩
  | append_singleton ops op ih =>
    rw [List.filter_append, List.length_append] at hfit
    obtain ⟨hi, hlen⟩ := ih (by omega)
    rw [run_concat, List.filter_append, List.length_append, ← hlen]
    cases op with
    | push level target message =>
      have hone : ([PollerOp.push level target message].filter PollerOp.isPush).length = 1 := rfl
      refine ⟨hi.push (by omega) level target message, ?_⟩
      rw [hone, step, List.length_append, List.length_singleton]
    | poll limit => exact ⟨hi.poll limit, rfl⟩

/-- The account holds in every state of a run once it holds after every poll. -/
theorem noSilentLoss_run (ops : List PollerOp)
    (hfit : (ops.filter PollerOp.isPush).length + 1 < 2 ^ 64)
    (hpoll : ∀ pre limit, pre ++ [.poll limit] <+: ops → (run capacity pre).NoSilentLoss →
      (run capacity (pre ++ [.poll limit])).NoSilentLoss)
    (pre : List PollerOp) (hpre : pre <+: ops) : (run capacity pre).NoSilentLoss := by
  refine prefix_induction (P := fun pre => (run capacity pre).NoSilentLoss) (Or.inr rfl) ?_ pre hpre
  intro pre op hpre hs
  cases op with
  | push level target message =>
    have hle := (hpre.sublist.filter PollerOp.isPush).length_le
    have hpush : (pre.filter PollerOp.isPush).length ≤
        ((pre ++ [PollerOp.push level target message]).filter PollerOp.isPush).length := by simp
    rw [run_concat]
    exact hs.push (run_inv hcap pre (by omega)).1 level target message
  | poll limit => exact hpoll pre limit hpre hs

/-- A poller that follows the cursor rule loses nothing silently exactly when at each of its polls
the unread events fit the page, unless eviction has broken the account before or at that poll. -/
theorem noSilentLoss_iff (ops : List PollerOp)
    (hfit : (ops.filter PollerOp.isPush).length + 1 < 2 ^ 64) :
    (∀ pre limit, pre ++ [.poll limit] <+: ops →
      (run capacity (pre ++ [.poll limit])).NoSilentLoss) ↔
    ∀ pre limit, pre ++ [.poll limit] <+: ops →
      (run capacity pre).lagged = true ∨ (run capacity pre).unread ≤ limit ∨
        capacity < (run capacity pre).unread := by
  have hinv : ∀ pre, pre <+: ops →
      (run capacity pre).Inv ∧ (run capacity pre).ring.capacity = capacity := by
    intro pre hpre
    have hle := (hpre.sublist.filter PollerOp.isPush).length_le
    refine ⟨(run_inv hcap pre (by omega)).1, ?_⟩
    clear hle hpre
    induction pre using List.reverseRecOn with
    | nil => rfl
    | append_singleton pre op ih => rw [run_concat]; cases op <;> exact ih
  have hstep : ∀ pre limit, pre ++ [.poll limit] <+: ops → (run capacity pre).NoSilentLoss →
      ((run capacity (pre ++ [.poll limit])).NoSilentLoss ↔
        (run capacity pre).lagged = true ∨ (run capacity pre).unread ≤ limit ∨
          capacity < (run capacity pre).unread) := by
    intro pre limit hpre hs
    obtain ⟨hi, hc⟩ := hinv pre ((List.prefix_append _ _).trans hpre)
    rw [run_concat, hi.noSilentLoss_poll hs, hc]
  constructor
  · intro hall pre limit hpre
    have hs := noSilentLoss_run hcap ops hfit (fun pre limit hp _ => hall pre limit hp) pre
      ((List.prefix_append _ _).trans hpre)
    exact (hstep pre limit hpre hs).mp (hall pre limit hpre)
  · intro hall pre limit hpre
    exact noSilentLoss_run hcap ops hfit
      (fun pre limit hp hs => (hstep pre limit hp hs).mpr (hall pre limit hp)) _ hpre

end Run

/-- Two events, then a page of one. -/
def shortPage : List PollerOp :=
  [.push .info "app" "first", .push .info "app" "second", .poll 1]

theorem noSilentLoss_iff_shortPage :
    (∀ pre limit, pre ++ [.poll limit] <+: shortPage →
      (run 4 (pre ++ [.poll limit])).NoSilentLoss) ↔
    ∀ pre limit, pre ++ [.poll limit] <+: shortPage →
      (run 4 pre).lagged = true ∨ (run 4 pre).unread ≤ limit ∨ 4 < (run 4 pre).unread :=
  noSilentLoss_iff (by decide) shortPage (by decide)

theorem shortPage_loses : ¬ ∀ (capacity : Nat) (ops : List PollerOp), 0 < capacity →
    (∀ limit, .poll limit ∈ ops → 1 ≤ limit) → ∀ pre limit, pre ++ [.poll limit] <+: ops →
      (run capacity (pre ++ [.poll limit])).NoSilentLoss := by
  intro h
  have hpage := h 4 shortPage (by decide) (by simp [shortPage]) (shortPage.take 2) 1 (by decide)
  revert hpage
  decide

end Poller

end GpuiAgent
