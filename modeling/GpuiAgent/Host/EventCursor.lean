import GpuiAgent.Host.EventRing

namespace GpuiAgent

open Framework

namespace EventRing

/-- `since` where overflow is checked. -/
def sinceChecked (r : EventRing) (since : Option Nat) (limit : Nat) : Option EventPoll := do
  let limit := min limit (max r.capacity 1)
  let baseSeq ← checkedSub r.next r.buf.length
  let events := (r.buf.filter fun e => since.all (· < e.seq)).take limit
  let lagged ← match since with
    | some s => (checkedAdd s 1).map fun after => decide (after < baseSeq)
    | none => some false
  return { events, latest := r.next - 1, lagged }

/-- The ring after a history of pushes. -/
def pushes (capacity : Nat) (history : List (EventLevel × String × String)) : EventRing :=
  history.foldl (fun r (level, target, message) => r.push level target message) (new capacity)

/-- Everything a history pushes, numbered from 1. -/
def eventsFrom (seq : Nat) : List (EventLevel × String × String) → List AgentEvent
  | [] => []
  | (level, target, message) :: history =>
    ⟨seq, level, target, message⟩ :: eventsFrom (seq + 1) history

/-- What is left of a log in a ring. -/
def retained (capacity : Nat) (log : List AgentEvent) : List AgentEvent :=
  log.drop (log.length - capacity)

def evicted (capacity : Nat) (log : List AgentEvent) : List AgentEvent :=
  log.take (log.length - capacity)

/-- A poll that neither overflows nor panics: the first retained events after the cursor in
increasing order, and `lagged` exactly when an event after the cursor has been evicted. -/
structure SinceExact (capacity : Nat) (history : List (EventLevel × String × String))
    (cursor limit : Nat) : Prop where
  checked : (pushes capacity history).sinceChecked (some cursor) limit =
    some ((pushes capacity history).since (some cursor) limit)
  events : ((pushes capacity history).since (some cursor) limit).events =
    ((retained capacity (eventsFrom 1 history)).filter fun e => cursor < e.seq).take
      (min limit capacity)
  increasing : (((pushes capacity history).since (some cursor) limit).events.map
    AgentEvent.seq).Pairwise (· < ·)
  lagged : ((pushes capacity history).since (some cursor) limit).lagged = true ↔
    ∃ e ∈ evicted capacity (eventsFrom 1 history), cursor < e.seq

section History

variable {capacity : Nat} {history : List (EventLevel × String × String)}

theorem foldl_push_retains {r : EventRing} {log : List AgentEvent} (h : r.Retains log)
    (hfit : log.length + history.length + 1 < 2 ^ 64) :
    (history.foldl (fun r (level, target, message) => r.push level target message) r).Retains
      (log ++ eventsFrom (log.length + 1) history) := by
  induction history generalizing r log with
  | nil => simpa [eventsFrom] using h
  | cons row history ih =>
    obtain ⟨level, target, message⟩ := row
    rw [List.length_cons] at hfit
    have hpush := push_retains h (by omega) level target message
    have hrest := ih hpush (by rw [List.length_append, List.length_singleton]; omega)
    rw [List.length_append, List.length_singleton, List.append_assoc, h.next] at hrest
    simpa [eventsFrom, h.next] using hrest

theorem pushes_retains (hfit : history.length + 1 < 2 ^ 64) :
    (pushes capacity history).Retains (eventsFrom 1 history) := by
  have h := @foldl_push_retains history _ _ (new_retains capacity) (by simpa using hfit)
  simpa [pushes] using h

theorem capacity_foldl_push (r : EventRing) (history : List (EventLevel × String × String)) :
    (history.foldl (fun r (level, target, message) => r.push level target message) r).capacity =
      r.capacity := by
  induction history generalizing r with
  | nil => rfl
  | cons row history ih => exact ih _

theorem pushes_capacity (capacity : Nat) (history : List (EventLevel × String × String)) :
    (pushes capacity history).capacity = capacity := capacity_foldl_push _ history

/-- The events of a log after a cursor are in increasing order. -/
theorem pairwise_seq {log : List AgentEvent}
    (h : log.map AgentEvent.seq = List.range' 1 log.length) :
    (log.map AgentEvent.seq).Pairwise (· < ·) := by
  rw [h]
  exact List.pairwise_lt_range'

theorem mem_take_iff_seq {log : List AgentEvent}
    (h : log.map AgentEvent.seq = List.range' 1 log.length) {n cursor : Nat} (hn : n ≤ log.length) :
    (∃ e ∈ log.take n, cursor < e.seq) ↔ cursor < n := by
  constructor
  · intro ⟨e, he, hlt⟩
    obtain ⟨i, hi, rfl⟩ := List.mem_take_iff_getElem.mp he
    have hseq := getElem_seq h i (by omega)
    omega
  · intro hlt
    have hi : n - 1 < log.length := by omega
    have hseq := getElem_seq h (n - 1) hi
    refine ⟨log[n - 1], List.mem_take_iff_getElem.mpr ⟨n - 1, by omega, rfl⟩, ?_⟩
    omega

/-- With overflow checked, a poll agrees with the wrapped one below the last cursor and panics at
it. -/
theorem Retains.sinceChecked_eq {r : EventRing} {log : List AgentEvent} (h : r.Retains log)
    (cursor limit : Nat) :
    r.sinceChecked (some cursor) limit = some (r.since (some cursor) limit) ↔
      cursor + 1 < 2 ^ 64 := by
  have hlen := h.length_buf
  have hfit := h.fits
  have hnext := h.next
  have hle : r.buf.length ≤ r.next := by omega
  have hbase : wrappingSub r.next r.buf.length = r.next - r.buf.length :=
    wrappingSub_eq hle (by omega)
  rw [sinceChecked, checkedSub_eq hle, since, hbase]
  by_cases hcur : cursor + 1 < 2 ^ 64
  · have hadd : checkedAdd cursor 1 = some (cursor + 1) := checkedAdd_eq_some.mpr ⟨hcur, rfl⟩
    refine iff_of_true ?_ hcur
    simp [hadd, wrappingAdd_eq hcur]
  · have hadd : checkedAdd cursor 1 = none := if_neg hcur
    refine iff_of_false ?_ hcur
    simp [hadd]

/-- A poll of the events is exact for every cursor but the last `u64`. -/
theorem sinceExact_iff (hcap : 1 ≤ capacity) (hfit : history.length < 2 ^ 64 - 1)
    (cursor limit : Nat) (hcursor : cursor < 2 ^ 64) :
    SinceExact capacity history cursor limit ↔ cursor ≠ 2 ^ 64 - 1 := by
  have hlog := @pushes_retains capacity history (by omega)
  have hchecked := hlog.sinceChecked_eq cursor limit
  have hring := pushes_capacity capacity history
  constructor
  · intro h
    have := hchecked.mp h.checked
    omega
  · intro hne
    have hcur : cursor + 1 < 2 ^ 64 := by omega
    have hspec := hlog.since_spec (by rw [hring]; exact hcap) hcur limit
    have hevents := filter_seq_lt hlog.seqs ((eventsFrom 1 history).length - capacity) cursor
    rw [hring] at hspec
    refine ⟨hchecked.mpr hcur, ?_, ?_, ?_⟩
    · rw [hspec, retained, hevents]
    · rw [hspec]
      have hsub : (eventsFrom 1 history).drop
          (max ((eventsFrom 1 history).length - capacity) cursor) |>.take (min limit capacity)
          |>.Sublist (eventsFrom 1 history) :=
        (List.take_sublist _ _).trans (List.drop_sublist _ _)
      exact (pairwise_seq hlog.seqs).sublist (hsub.map _)
    · rw [hspec, evicted, mem_take_iff_seq hlog.seqs (Nat.sub_le _ _)]
      exact decide_eq_true_iff

/-- A full ring of one event, polled from the start. -/
theorem sinceExact_iff_full :
    SinceExact 1 [(.info, "app", "one"), (.warn, "app", "two")] 0 8 ↔ 0 ≠ 2 ^ 64 - 1 :=
  sinceExact_iff (by decide) (by decide) 0 8 (by decide)

/-- A poll of a fresh ring from the last `u64` overflows. -/
theorem since_overflows : ¬ ∀ (capacity : Nat) (history : List (EventLevel × String × String))
    (cursor limit : Nat), 1 ≤ capacity → history.length < 2 ^ 64 - 1 → cursor < 2 ^ 64 →
      SinceExact capacity history cursor limit := by
  intro h
  have hlagged := (h 1 [] (2 ^ 64 - 1) 1 (by decide) (by decide) (by decide)).lagged
  exact absurd (hlagged.mp (by decide)) (by simp [evicted, eventsFrom])

end History

end EventRing

end GpuiAgent
