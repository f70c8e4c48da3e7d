import GpuiAgent.Cli.McpTools

namespace GpuiAgent

open Framework

/-- A call of a program and its answer; what answered was in the state `before`. -/
structure Exchange (σ : Type*) where
  before : σ
  op : Op
  result : Except String Response

namespace ClientProgram

variable {α β : Type} {σ : Type*}

def bind : ClientProgram α → (α → ClientProgram β) → ClientProgram β
  | .done a, f => f a
  | .rpc op next, f => .rpc op fun result => (next result).bind f
  | .pipeline ops next, f => .pipeline ops fun results => (next results).bind f

instance : Monad ClientProgram where
  pure := .done
  bind := bind

section Converse

variable (answer : σ → Op → Except String Response × σ)

def answerAll (s : σ) : List Op → List (Except String Response) × σ × List (Exchange σ)
  | [] => ([], s, [])
  | op :: ops =>
    let (result, s') := answer s op
    let (results, t, calls) := answerAll s' ops
    (result :: results, t, ⟨s, op, result⟩ :: calls)

/-- Run a program against what answers its calls, with the calls that it makes. -/
def converse : ClientProgram α → σ → α × σ × List (Exchange σ)
  | .done a, s => (a, s, [])
  | .rpc op next, s =>
    let (result, s') := answer s op
    let (a, t, calls) := (next result).converse s'
    (a, t, ⟨s, op, result⟩ :: calls)
  | .pipeline ops next, s =>
    let (results, s', calls) := answerAll answer s ops
    let (a, t, rest) := (next (results.mapM id)).converse s'
    (a, t, calls ++ rest)

theorem converse_bind (p : ClientProgram α) (f : α → ClientProgram β) (s : σ) :
    (p.bind f).converse answer s =
      let (a, t, calls) := p.converse answer s
      let (b, u, rest) := (f a).converse answer t
      (b, u, calls ++ rest) := by
  induction p generalizing s with
  | done a => rfl
  | rpc op next ih => simp only [bind, converse, ih, List.cons_append]
  | pipeline ops next ih => simp only [bind, converse, ih, List.append_assoc]

/-- The calls as answered one after another from `s` on, up to `t`. -/
def Threaded : σ → List (Exchange σ) → σ → Prop
  | s, [], t => t = s
  | s, e :: es, t =>
    e.before = s ∧ e.result = (answer s e.op).1 ∧ Threaded (answer s e.op).2 es t

variable {answer}

theorem Threaded.append {s t u : σ} {es fs : List (Exchange σ)} (hes : Threaded answer s es t)
    (hfs : Threaded answer t fs u) : Threaded answer s (es ++ fs) u := by
  induction es generalizing s with
  | nil =>
    obtain rfl : t = s := hes
    exact hfs
  | cons e es ih => exact ⟨hes.1, hes.2.1, ih hes.2.2⟩

theorem threaded_answerAll (s : σ) (ops : List Op) :
    Threaded answer s (answerAll answer s ops).2.2 (answerAll answer s ops).2.1 := by
  induction ops generalizing s with
  | nil => rfl
  | cons op ops ih => exact ⟨rfl, rfl, ih _⟩

theorem threaded_converse (p : ClientProgram α) (s : σ) :
    Threaded answer s (p.converse answer s).2.2 (p.converse answer s).2.1 := by
  induction p generalizing s with
  | done a => rfl
  | rpc op next ih => exact ⟨rfl, rfl, ih _ _⟩
  | pipeline ops next ih => exact (threaded_answerAll s ops).append (ih _ _)

theorem Threaded.result_eq {s t : σ} {es : List (Exchange σ)} (h : Threaded answer s es t) :
    ∀ e ∈ es, e.result = (answer e.before e.op).1 := by
  induction es generalizing s with
  | nil => exact List.forall_mem_nil _
  | cons e es ih =>
    obtain ⟨rfl, hresult, hrest⟩ := h
    exact List.forall_mem_cons.mpr ⟨hresult, ih hrest⟩

end Converse

section Timed

/-- A program that sends one op at a time. -/
def Unbatched : ClientProgram α → Prop
  | .done _ => True
  | .rpc _ next => ∀ result, (next result).Unbatched
  | .pipeline _ _ => False

theorem Unbatched.bind {p : ClientProgram α} {f : α → ClientProgram β} (hp : p.Unbatched)
    (hf : ∀ a, (f a).Unbatched) : (p.bind f).Unbatched := by
  induction p with
  | done a => exact hf a
  | rpc op next ih => exact fun result => ih result (hp result)
  | pipeline ops next ih => exact hp.elim

/-- The client over its connection, as what answers. -/
def timedAnswer (host : Nat → List (List Attempt)) (place : Nat × TimedClient) (op : Op) :
    Except String Response × Nat × TimedClient :=
  let call := place.2.rpcOp op ((host place.1).headD [])
  (call.result, place.1 + 1, call.client)

/-- Run over the connection of a client, a program talks with the client as what answers it. -/
theorem run_eq_converse (host : Nat → List (List Attempt)) {p : ClientProgram α}
    (hp : p.Unbatched) (n : Nat) (c : TimedClient) :
    (p.run host n c).1 = (p.converse (timedAnswer host) (n, c)).1 ∧
      (p.run host n c).2.1 = (p.converse (timedAnswer host) (n, c)).2.1.2 := by
  induction p generalizing n c with
  | done a => exact ⟨rfl, rfl⟩
  | rpc op next ih => exact ih _ (hp _) (n + 1) _
  | pipeline ops next ih => exact hp.elim

end Timed

end ClientProgram

/-- What a tool does with the client, which ends early where a call fails. -/
abbrev Tool (α : Type) : Type := ExceptT String ClientProgram α

namespace Tool

variable {α β : Type} {σ : Type*}

def expectOk (op : Op) : Tool Response := ExceptT.mk (.expectOk op .done)

def ofExcept (r : Except String α) : Tool α := ExceptT.mk (.done r)

/-- The outcome of a tool, the state it leaves behind and its calls. -/
structure Ran (α : Type) (σ : Type*) where
  outcome : Except String α
  after : σ
  calls : List (Exchange σ)

variable (answer : σ → Op → Except String Response × σ)

def ran (tool : Tool α) (s : σ) : Ran α σ :=
  let (outcome, after, calls) := ClientProgram.converse answer tool.run s
  ⟨outcome, after, calls⟩

/-- A tool that sends one op at a time. -/
def Unbatched (tool : Tool α) : Prop := ClientProgram.Unbatched tool.run

theorem unbatched_expectOk (op : Op) : (expectOk op).Unbatched := fun _ => trivial

theorem unbatched_ofExcept (r : Except String α) : (ofExcept r).Unbatched := trivial

theorem unbatched_pure (a : α) : (pure a : Tool α).Unbatched := trivial

theorem Unbatched.bind {tool : Tool α} {f : α → Tool β} (htool : tool.Unbatched)
    (hf : ∀ a, (f a).Unbatched) : (tool >>= f).Unbatched :=
  ClientProgram.Unbatched.bind htool fun outcome => by
    cases outcome with
    | error err => exact trivial
    | ok a => exact hf a

/-- An answer without `ok` is an error. -/
def accepted (result : Except String Response) : Except String Response :=
  result.bind fun resp => if resp.ok then .ok resp else .error (resp.error.getD "request failed")

section Laws

variable {answer}

theorem ran_pure (s : σ) (a : α) : (pure a : Tool α).ran answer s = ⟨.ok a, s, []⟩ := rfl

theorem ran_ofExcept (s : σ) (r : Except String α) : (ofExcept r).ran answer s = ⟨r, s, []⟩ := rfl

theorem ran_ofExcept_bind_ok (s : σ) (a : α) (f : α → Tool β) :
    (ofExcept (.ok a) >>= f).ran answer s = (f a).ran answer s := rfl

theorem ran_ofExcept_bind_error (s : σ) (err : String) (f : α → Tool β) :
    (ofExcept (.error err) >>= f).ran answer s = ⟨.error err, s, []⟩ := rfl

theorem ran_expectOk (s : σ) (op : Op) : (expectOk op).ran answer s =
    ⟨accepted (answer s op).1, (answer s op).2, [⟨s, op, (answer s op).1⟩]⟩ := rfl

theorem converse_of_ran {tool : Tool α} {s t : σ} {outcome : Except String α}
    {calls : List (Exchange σ)} (h : tool.ran answer s = ⟨outcome, t, calls⟩) :
    tool.run.converse answer s = (outcome, t, calls) := by
  obtain ⟨hout, hafter, hcalls⟩ := Ran.mk.inj h
  exact Prod.ext hout (Prod.ext hafter hcalls)

theorem ran_bind_ok {tool : Tool α} {s t : σ} {a : α} {calls : List (Exchange σ)}
    (h : tool.ran answer s = ⟨.ok a, t, calls⟩) (f : α → Tool β) :
    (tool >>= f).ran answer s =
      let rest := (f a).ran answer t
      ⟨rest.outcome, rest.after, calls ++ rest.calls⟩ := by
  have hbind : (tool >>= f).run = ClientProgram.bind tool.run (ExceptT.bindCont f) := rfl
  rw [ran, hbind, ClientProgram.converse_bind, converse_of_ran h]
  rfl

theorem ran_bind_error {tool : Tool α} {s t : σ} {err : String} {calls : List (Exchange σ)}
    (h : tool.ran answer s = ⟨.error err, t, calls⟩) (f : α → Tool β) :
    (tool >>= f).ran answer s = ⟨.error err, t, calls⟩ := by
  have hbind : (tool >>= f).run = ClientProgram.bind tool.run (ExceptT.bindCont f) := rfl
  have hstop : (ExceptT.bindCont f (.error err)).converse answer t = (.error err, t, []) := rfl
  rw [ran, hbind, ClientProgram.converse_bind, converse_of_ran h]
  dsimp only
  rw [hstop, List.append_nil]

end Laws

end Tool

end GpuiAgent
