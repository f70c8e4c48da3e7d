import Mathlib.Data.List.Basic
import Mathlib.Tactic.SplitIfs

namespace GpuiAgent.Framework

/-- A queue from one thread to another, with what is left of its two ends. -/
structure Channel (α : Type*) where
  queue : List α := []
  sender : Bool := true
  receiver : Bool := true

/-- What a receiver finds that does not wait. -/
inductive TryRecv (α : Type*) where
  | value (a : α)
  | empty
  | disconnected

namespace Channel

variable {α : Type*} (c : Channel α)

/-- A value is refused once the receiver is gone. -/
def send (a : α) : Option (Channel α) :=
  if c.receiver then some { c with queue := c.queue ++ [a] } else none

/-- Values that were sent are still received when the sender is gone. -/
def tryRecv : TryRecv α × Channel α :=
  match c.queue with
  | a :: queue => (.value a, { c with queue })
  | [] => (if c.sender then .empty else .disconnected, c)

def dropSender : Channel α := { c with sender := false }

/-- What was not received is dropped too. -/
def dropReceiver : Channel α := { c with receiver := false, queue := [] }

/-- Send a list, whose refused values nobody asks about. -/
def sendAll (as : List α) : Channel α := as.foldl (fun c a => (c.send a).getD c) c

/-- Take all that is there and keep the last. -/
def drain : TryRecv α × Channel α :=
  match c.tryRecv with
  | (.value first, rest) => (.value (rest.queue.foldl (fun _ next => next) first),
    { rest with queue := [] })
  | (outcome, rest) => (outcome, rest)

variable {c}

theorem sendAll_cons (a : α) (as : List α) :
    c.sendAll (a :: as) = ((c.send a).getD c).sendAll as := rfl

theorem send_of_receiver (h : c.receiver = true) (a : α) :
    c.send a = some { c with queue := c.queue ++ [a] } := by
  rw [send, if_pos h]

theorem sendAll_of_receiver (h : c.receiver = true) (as : List α) :
    c.sendAll as = { c with queue := c.queue ++ as } := by
  induction as generalizing c with
  | nil => simp [sendAll]
  | cons a as ih =>
    have hnext := ih (c := { c with queue := c.queue ++ [a] }) h
    rw [sendAll_cons, send_of_receiver h, Option.getD_some, hnext, List.append_assoc,
      List.singleton_append]

theorem foldl_last (as : List α) (first : α) :
    as.foldl (fun _ next => next) first = ((first :: as).getLast (List.cons_ne_nil _ _)) := by
  induction as generalizing first with
  | nil => rfl
  | cons a as ih => rw [List.foldl_cons, ih, List.getLast_cons (List.cons_ne_nil _ _)]

/-- A drain gives the last value and leaves none, or finds nothing to take. -/
theorem drain_cases : (c.queue = [] ∧ c.drain = (if c.sender then .empty else .disconnected, c)) ∨
    ∃ h : c.queue ≠ [], c.drain = (.value (c.queue.getLast h), { c with queue := [] }) := by
  obtain ⟨queue, sender, receiver⟩ := c
  cases queue with
  | nil =>
    left
    cases sender <;> exact ⟨rfl, rfl⟩
  | cons a queue =>
    right
    refine ⟨List.cons_ne_nil _ _, ?_⟩
    simp only [drain, tryRecv, foldl_last]

end Channel

end GpuiAgent.Framework
