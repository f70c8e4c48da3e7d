import GpuiAgent.Framework.Word
import Mathlib.Data.List.Range
import Mathlib.Data.List.DropRight

namespace GpuiAgent

open Framework

/-- Events retained per host. -/
def EVENT_RING_CAPACITY : Nat := 1024

/-- Default page size of an `events` poll. -/
def EVENTS_DEFAULT_LIMIT : Nat := 256

inductive EventLevel where
  | trace | debug | info | warn | error
  deriving DecidableEq

structure AgentEvent where
  seq : Nat
  level : EventLevel
  target : String
  message : String
  deriving DecidableEq

/-- One `events` poll answer. -/
structure EventPoll where
  events : List AgentEvent
  latest : Nat
  lagged : Bool
  deriving DecidableEq

/-- Bounded FIFO of events; `next` is the seq allocated next. -/
structure EventRing where
  capacity : Nat
  next : Nat
  buf : List AgentEvent

namespace EventRing

def new (capacity : Nat) : EventRing := ⟨capacity, 1, []⟩

/-- Append one event; `next` is a `u64` and wraps. -/
def push (r : EventRing) (level : EventLevel) (target message : String) : EventRing :=
  let buf := if 0 < r.capacity ∧ r.buf.length = r.capacity then r.buf.tail else r.buf
  { r with
    next := wrappingAdd r.next 1
    buf := if 0 < r.capacity then buf ++ [⟨r.next, level, target, message⟩] else buf }

/-- Events with `seq > since`, oldest first, capped at `limit`; the arithmetic is that of `u64`. -/
def since (r : EventRing) (since : Option Nat) (limit : Nat) : EventPoll :=
  let limit := min limit (max r.capacity 1)
  let baseSeq := wrappingSub r.next r.buf.length
  { events := (r.buf.filter fun e => since.all (· < e.seq)).take limit
    latest := r.next - 1
    lagged := since.any fun s => wrappingAdd s 1 < baseSeq }

def latest (r : EventRing) : Nat := r.next - 1

def isEmpty (r : EventRing) : Bool := r.buf.isEmpty

end EventRing

/-- The ring seen from the log of everything pushed: it keeps the last `capacity` entries, numbered
from 1 in log order. -/
structure EventRing.Retains (r : EventRing) (log : List AgentEvent) : Prop where
  fits : log.length + 1 < 2 ^ 64
  next : r.next = log.length + 1
  seqs : log.map AgentEvent.seq = List.range' 1 log.length
  buf : r.buf = log.drop (log.length - r.capacity)

namespace EventRing

variable {r : EventRing} {log : List AgentEvent}

theorem new_retains (capacity : Nat) : (new capacity).Retains [] :=
  ⟨by simp, rfl, rfl, by simp [new]⟩

theorem Retains.length_buf (h : r.Retains log) : r.buf.length = min log.length r.capacity := by
  rw [h.buf, List.length_drop]
  omega

theorem push_retains (h : r.Retains log) (hfit : log.length + 2 < 2 ^ 64) (level : EventLevel)
    (target message : String) :
    (r.push level target message).Retains (log ++ [⟨r.next, level, target, message⟩]) := by
  have hlen := h.length_buf
  refine ⟨by simpa using hfit, ?_, ?_, ?_⟩
  · rw [List.length_append, List.length_singleton, push, h.next]
    exact wrappingAdd_eq hfit
  · simp [h.seqs, h.next, List.range'_concat, Nat.add_comm]
  · rw [push]
    by_cases hc : 0 < r.capacity
    · simp only [hc, true_and, if_true, List.length_append, List.length_singleton]
      split_ifs with hfull
      · -- a full ring drops its oldest event
        have hle : r.capacity ≤ log.length := by omega
        rw [h.buf, List.tail_drop, ← List.drop_append_of_le_length (by omega)]
        congr 1
        omega
      · have hle : log.length + 1 ≤ r.capacity := by omega
        rw [h.buf, Nat.sub_eq_zero_of_le (Nat.le_of_succ_le hle), Nat.sub_eq_zero_of_le hle]
        simp
    · have hz : r.capacity = 0 := by omega
      simp [hz, h.buf]

theorem getElem_seq (h : log.map AgentEvent.seq = List.range' 1 log.length) (i : Nat)
    (hi : i < log.length) : (log[i]).seq = i + 1 := by
  have hx : (log.map AgentEvent.seq)[i]? = (List.range' 1 log.length)[i]? := by rw [h]
  simpa [hi, Nat.add_comm] using hx

/-- The events of the log after a cursor. -/
theorem filter_seq_lt (h : log.map AgentEvent.seq = List.range' 1 log.length) (n cursor : Nat) :
    (log.drop n).filter (fun e => cursor < e.seq) = log.drop (max n cursor) := by
  induction hk : log.length - n generalizing n with
  | zero =>
    rw [List.drop_eq_nil_of_le (by omega), List.drop_eq_nil_of_le (by omega)]
    rfl
  | succ k ih =>
    have hn : n < log.length := by omega
    rw [List.drop_eq_getElem_cons hn, List.filter_cons, getElem_seq h n hn, ih (n + 1) (by omega)]
    by_cases hc : cursor < n + 1
    · rw [if_pos (decide_eq_true hc), show max (n + 1) cursor = n + 1 by omega,
        show max n cursor = n by omega, ← List.drop_eq_getElem_cons hn]
    · rw [if_neg (by simpa using hc), show max (n + 1) cursor = cursor by omega,
        show max n cursor = cursor by omega]

/-- A poll from a cursor below the last `u64`: the first `limit` retained events after it, and
`lagged` when one of them has been evicted. -/
theorem Retains.since_spec (h : r.Retains log) (hc : 0 < r.capacity) {cursor : Nat}
    (hcur : cursor + 1 < 2 ^ 64) (limit : Nat) :
    r.since (some cursor) limit =
      { events := (log.drop (max (log.length - r.capacity) cursor)).take (min limit r.capacity)
        latest := log.length
        lagged := cursor < log.length - r.capacity } := by
  have hlen := h.length_buf
  have hfit := h.fits
  have hbase : wrappingSub r.next r.buf.length = log.length + 1 - r.buf.length := by
    rw [h.next, wrappingSub_eq (by omega) hfit]
  have hadd : wrappingAdd cursor 1 = cursor + 1 := wrappingAdd_eq hcur
  have hev : r.buf.filter (fun e => cursor < e.seq) =
      log.drop (max (log.length - r.capacity) cursor) := by
    rw [h.buf, filter_seq_lt h.seqs]
  have hlag : cursor + 1 < log.length + 1 - r.buf.length ↔ cursor < log.length - r.capacity := by
    omega
  rw [since, hbase]
  simp only [Option.any_some, Option.all_some, hadd, hev, hlag, h.next, Nat.add_sub_cancel,
    Nat.max_eq_left hc]

end EventRing

end GpuiAgent
