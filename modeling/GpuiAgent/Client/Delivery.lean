import GpuiAgent.Client.AgentClient

namespace GpuiAgent

open Framework

/-- No line is written again once it has gone out in full. -/
def WrittenOnce (log : List LineWrite) : Prop :=
  log.Pairwise fun w w' => w.complete = true → w.id ≠ w'.id

instance (log : List LineWrite) : Decidable (WrittenOnce log) :=
  inferInstanceAs (Decidable (List.Pairwise _ log))

namespace Attempt

variable (a : Attempt) (session : Bool)

/-- A one-op attempt has a connection to write to. -/
def opens : Bool := (if session then a.setTimeout else a.connect).isOk

/-- It puts some of its line on the wire. -/
def writes : Bool := a.opens session && match a.write 0 with
  | .unsent _ => false
  | _ => true

/-- It puts all of its line on the wire. -/
def delivers : Bool := a.opens session && match a.write 0 with
  | .complete => true
  | _ => false

theorem writes_of_delivers {a : Attempt} {session : Bool} (h : a.delivers session = true) :
    a.writes session = true := by
  simp only [delivers, Bool.and_eq_true] at h
  rw [writes, h.1]
  cases h0 : a.write 0 <;> simp_all

def repliesTo (i : Nat) : Bool := match a.read i with
  | .line _ => true
  | _ => false

/-- A one-op attempt that ends the call with a reply. -/
def answered : Bool := a.delivers session && a.flush.isOk && a.repliesTo 0

theorem delivers_of_answered {a : Attempt} {session : Bool} (h : a.answered session = true) :
    a.delivers session = true := by
  simp only [answered, Bool.and_eq_true] at h
  exact h.1.1

def pipelineOpens : Bool := session || a.connect.isOk

/-- A pipeline attempt that fails before its first line has gone out. -/
def pipelineRetries : Bool := !a.pipelineOpens session || match a.write 0 with
  | .complete => false
  | _ => true

/-- A pipeline attempt that ends the call with a reply to each of `n` lines. -/
def pipelineAnswered (n : Nat) : Bool :=
  a.pipelineOpens session && (List.range n).all (fun i => a.write i = .complete) && a.flush.isOk &&
    (List.range n).all fun i => a.repliesTo i

end Attempt

/-- The attempts made on new connections, up to the first that is answered. -/
def tried : List Attempt → List Attempt
  | [] => []
  | a :: attempts => a :: if a.answered false then [] else tried attempts

/-- No attempt writes after one that delivered the line and was not answered. -/
def ResendFree (session : Bool) : List Attempt → Prop
  | [] => True
  | a :: attempts => a.answered session = true ∨
      (a.delivers session = true → ∀ b ∈ tried attempts, b.writes false = false) ∧
        ResendFree false attempts

/-- Some attempt of a round trip is answered. -/
def roundtripAnswered (session : Bool) : List Attempt → Bool
  | [] => false
  | a :: attempts => a.answered session || roundtripAnswered false attempts

/-- Some attempt of a pipeline of `n` lines is answered, all before it failing before a line went
out. -/
def pipelineLoopAnswered (n : Nat) (session : Bool) : List Attempt → Bool
  | [] => false
  | a :: attempts => a.pipelineAnswered session n ||
      a.pipelineRetries session && pipelineLoopAnswered n false attempts

def chunkAnswered (n : Nat) (session : Bool) (attempts : List Attempt) : Bool :=
  match n with
  | 0 => true
  | 1 => roundtripAnswered session attempts
  | n => pipelineLoopAnswered n session attempts

/-- Every one-op piece of the call that is reached is free of resends. -/
def ChunksResendFree (session : Bool) : List (List Op) → List (List Attempt) → Prop
  | [], _ => True
  | chunk :: rest, script =>
    (chunk.length = 1 → ResendFree session (script.headD [])) ∧
      (chunkAnswered chunk.length session (script.headD []) = true →
        ChunksResendFree true rest script.tail)

namespace AgentClient

section Roundtrip

variable (c : AgentClient) (id : Nat) (op : Op)

theorem exchangeWire_spec (a : Attempt) (session : Bool) (ho : a.opens session = true) :
    (exchangeWire a id op).2 =
      (if a.writes session then [⟨id, op, a.delivers session⟩] else []) ∧
    ((exchangeWire a id op).1.isOk = a.answered session) := by
  unfold exchangeWire Attempt.answered Attempt.writes Attempt.delivers Attempt.repliesTo
  rw [ho]
  cases hw : a.write 0 with
  | unsent error => exact ⟨rfl, rfl⟩
  | cut error => exact ⟨rfl, rfl⟩
  | complete =>
    cases hf : a.flush with
    | error error => exact ⟨rfl, rfl⟩
    | ok u => cases hr : a.read 0 <;> exact ⟨rfl, rfl⟩

/-- One attempt of a round trip: what it writes, and whether the loop goes on. -/
theorem roundtripLoop_cons (lastErr : String) (a : Attempt) (attempts : List Attempt) :
    (a.answered c.session = true ∧ ∃ resp, c.roundtripLoop id op lastErr (a :: attempts) =
      ⟨.ok resp, { c with session := true }, [⟨id, op, true⟩]⟩) ∨
    (a.answered c.session = false ∧ ∃ error,
      let rest := roundtripLoop { c with session := false } id op error attempts
      c.roundtripLoop id op lastErr (a :: attempts) = { rest with
        log := (if a.writes c.session then [⟨id, op, a.delivers c.session⟩] else []) ++
          rest.log }) := by
  rw [roundtripLoop]
  cases ho : (if c.session then a.setTimeout else a.connect) with
  | error error =>
    have hopens : a.opens c.session = false := by rw [Attempt.opens, ho]; rfl
    refine Or.inr ⟨by simp [Attempt.answered, Attempt.delivers, hopens], error, ?_⟩
    simp [Attempt.writes, hopens]
  | ok u =>
    have hopens : a.opens c.session = true := by rw [Attempt.opens, ho]; rfl
    obtain ⟨hlog, hok⟩ := exchangeWire_spec id op a c.session hopens
    rcases hx : exchangeWire a id op with ⟨_ | _, log⟩
    · next error =>
      rw [hx] at hlog hok
      refine Or.inr ⟨hok.symm, error, ?_⟩
      rw [← hlog]
    · next resp =>
      rw [hx] at hlog hok
      have ha : a.answered c.session = true := hok.symm
      have hd := Attempt.delivers_of_answered ha
      have hw := Attempt.writes_of_delivers hd
      refine Or.inl ⟨ha, resp, ?_⟩
      simp only [hw, hd, if_true] at hlog
      rw [← hlog]

theorem roundtripLoop_id (lastErr : String) (attempts : List Attempt) :
    ∀ w ∈ (c.roundtripLoop id op lastErr attempts).log, w.id = id ∧ w.op = op := by
  induction attempts generalizing c lastErr with
  | nil => simp [roundtripLoop]
  | cons a attempts ih =>
    intro w hw
    rcases c.roundtripLoop_cons id op lastErr a attempts with ⟨-, resp, he⟩ | ⟨-, error, he⟩
    · rw [he] at hw
      obtain rfl := List.mem_singleton.mp hw
      exact ⟨rfl, rfl⟩
    · rw [he] at hw
      rcases List.mem_append.mp hw with hw | hw
      · split_ifs at hw
        · obtain rfl := List.mem_singleton.mp hw
          exact ⟨rfl, rfl⟩
        · simp at hw
      · exact ih _ _ w hw

/-- On new connections something is written exactly when a tried attempt writes. -/
theorem roundtripLoop_log_eq_nil (lastErr : String) (attempts : List Attempt)
    (hs : c.session = false) :
    (c.roundtripLoop id op lastErr attempts).log = [] ↔
      ∀ b ∈ tried attempts, b.writes false = false := by
  induction attempts generalizing c lastErr with
  | nil => simp [roundtripLoop, tried]
  | cons a attempts ih =>
    rw [tried, List.forall_mem_cons]
    rcases c.roundtripLoop_cons id op lastErr a attempts with ⟨ha, resp, he⟩ | ⟨ha, error, he⟩
    · rw [hs] at ha
      have hw := Attempt.writes_of_delivers (Attempt.delivers_of_answered ha)
      rw [he]
      simp [hw]
    · rw [hs] at ha he
      rw [he, List.append_eq_nil_iff, ih { c with session := false } error rfl]
      cases hw : a.writes false <;> simp [ha]

/-- A round trip writes its line once exactly when its attempts are free of resends. -/
theorem roundtripLoop_writtenOnce (lastErr : String) (attempts : List Attempt) :
    WrittenOnce (c.roundtripLoop id op lastErr attempts).log ↔ ResendFree c.session attempts := by
  induction attempts generalizing c lastErr with
  | nil => simp [roundtripLoop, WrittenOnce, ResendFree]
  | cons a attempts ih =>
    rw [ResendFree]
    rcases c.roundtripLoop_cons id op lastErr a attempts with ⟨ha, resp, he⟩ | ⟨ha, error, he⟩
    · rw [he]
      simp [WrittenOnce, ha]
    · rw [he, WrittenOnce, List.pairwise_append, ha]
      have hrest := ih { c with session := false } error
      have hnil := roundtripLoop_log_eq_nil { c with session := false } id op error attempts rfl
      have hid := roundtripLoop_id { c with session := false } id op error attempts
      rw [WrittenOnce] at hrest
      rw [hrest]
      simp only [Bool.false_eq_true, false_or]
      -- the line of this attempt clashes with any later one, which has the same id
      cases hd : a.delivers c.session with
      | false => split_ifs <;> simp
      | true =>
        have hw := Attempt.writes_of_delivers hd
        simp only [hw, if_true, List.pairwise_singleton, true_and, List.forall_mem_singleton,
          true_implies, ← hnil]
        constructor
        · rintro ⟨hfree, hne⟩
          refine ⟨List.eq_nil_iff_forall_not_mem.mpr fun w hw => ?_, hfree⟩
          exact hne w hw (hid w hw).1.symm
        · rintro ⟨hempty, hfree⟩
          exact ⟨hfree, by rw [hempty]; simp⟩

theorem roundtripLoop_isOk (lastErr : String) (attempts : List Attempt) :
    (c.roundtripLoop id op lastErr attempts).result.isOk = roundtripAnswered c.session attempts ∧
    (c.roundtripLoop id op lastErr attempts).client.nextId = c.nextId ∧
    ((c.roundtripLoop id op lastErr attempts).result.isOk = true →
      (c.roundtripLoop id op lastErr attempts).client.session = true) := by
  induction attempts generalizing c lastErr with
  | nil => exact ⟨rfl, rfl, fun h => by cases h⟩
  | cons a attempts ih =>
    rw [roundtripAnswered]
    rcases c.roundtripLoop_cons id op lastErr a attempts with ⟨ha, resp, he⟩ | ⟨ha, error, he⟩
    · rw [he, ha]
      exact ⟨rfl, rfl, fun _ => rfl⟩
    · rw [he, ha, Bool.false_or]
      exact ih { c with session := false } error

end Roundtrip

section Pipeline

variable (a : Attempt) (startId : Nat)

/-- The lines of a pipeline attempt have the ids of their ops, in order, each once. -/
theorem writeLines_log (ops : List Op) : ∀ i, ∀ w ∈ (writeLines a startId i ops).2,
    ∃ j, ops[j]? = some w.op ∧ w.id = startId + i + j := by
  induction ops with
  | nil => simp [writeLines]
  | cons op ops ih =>
    intro i w hw
    rw [writeLines] at hw
    cases h : a.write i with
    | complete =>
      rw [h] at hw
      rcases List.mem_cons.mp hw with rfl | hw
      · exact ⟨0, rfl, rfl⟩
      · obtain ⟨j, hj, hid⟩ := ih (i + 1) w hw
        exact ⟨j + 1, hj, by omega⟩
    | cut error =>
      rw [h] at hw
      obtain rfl := List.mem_singleton.mp hw
      exact ⟨0, rfl, rfl⟩
    | unsent error =>
      rw [h] at hw
      simp at hw

theorem writeLines_writtenOnce (ops : List Op) :
    ∀ i, WrittenOnce (writeLines a startId i ops).2 := by
  induction ops with
  | nil => exact fun _ => List.Pairwise.nil
  | cons op ops ih =>
    intro i
    rw [writeLines]
    cases h : a.write i with
    | complete =>
      refine List.Pairwise.cons (fun w hw _ => ?_) (ih (i + 1))
      obtain ⟨j, -, hid⟩ := writeLines_log a startId ops (i + 1) w hw
      exact fun e => by dsimp only at e; omega
    | cut error => exact List.pairwise_singleton _ _
    | unsent error => exact List.Pairwise.nil

theorem writeLines_isOk (ops : List Op) : ∀ i, (writeLines a startId i ops).1.isOk =
    (List.range' i ops.length).all fun j => a.write j = .complete := by
  induction ops with
  | nil => exact fun _ => rfl
  | cons op ops ih =>
    intro i
    rw [writeLines, List.length_cons, List.range'_succ, List.all_cons]
    cases h : a.write i with
    | complete => simpa using ih (i + 1)
    | cut error => simp [Except.isOk, Except.toBool]
    | unsent error => simp [Except.isOk, Except.toBool]

/-- A retryable failure is one of the first line, which then did not go out in full. -/
theorem writeLines_error (op : Op) (ops : List Op) {error : PipelineError} {log : List LineWrite}
    (h : writeLines a startId 0 (op :: ops) = (.error error, log)) :
    (a.write 0 = .complete ∧ ∃ e, error = .fatal e) ∨
      (a.write 0 ≠ .complete ∧ (∃ e, error = .retryable e) ∧ ∀ w ∈ log, w.complete = false) := by
  have later : ∀ (ops : List Op) (i : Nat) {error : PipelineError} {log : List LineWrite}, 0 < i →
      writeLines a startId i ops = (.error error, log) → ∃ e, error = .fatal e := by
    intro ops
    induction ops with
    | nil => intro i error log _ h; cases h
    | cons op ops ih =>
      intro i error log hi h
      rw [writeLines] at h
      cases hw : a.write i with
      | complete =>
        rw [hw] at h
        have hfst : (writeLines a startId (i + 1) ops).1 = .error error := congrArg Prod.fst h
        exact ih (i + 1) (Nat.succ_pos i) (Prod.ext hfst rfl)
      | cut e =>
        rw [hw] at h
        simp only [hi, if_true, Prod.mk.injEq, Except.error.injEq] at h
        exact ⟨e, h.1.symm⟩
      | unsent e =>
        rw [hw] at h
        simp only [hi, if_true, Prod.mk.injEq, Except.error.injEq] at h
        exact ⟨e, h.1.symm⟩
  rw [writeLines] at h
  cases hw : a.write 0 with
  | complete =>
    rw [hw] at h
    have hfst : (writeLines a startId 1 ops).1 = .error error := congrArg Prod.fst h
    exact Or.inl ⟨rfl, later ops 1 Nat.one_pos (Prod.ext hfst rfl)⟩
  | cut e =>
    rw [hw] at h
    simp only [Nat.lt_irrefl, if_false, Prod.mk.injEq, Except.error.injEq] at h
    refine Or.inr ⟨by simp, ⟨e, h.1.symm⟩, ?_⟩
    rw [← h.2]
    simp
  | unsent e =>
    rw [hw] at h
    simp only [Nat.lt_irrefl, if_false, Prod.mk.injEq, Except.error.injEq] at h
    refine Or.inr ⟨by simp, ⟨e, h.1.symm⟩, ?_⟩
    rw [← h.2]
    simp

theorem readLines_spec (ops : List Op) : ∀ (i : Nat) (out : List Response),
    (readLines a i ops out).isOk = (List.range' i ops.length).all (fun j => a.repliesTo j) ∧
    ∀ error, readLines a i ops out = .error error → ∃ e, error = .fatal e := by
  induction ops with
  | nil => exact fun i out => ⟨rfl, fun error h => by cases h⟩
  | cons op ops ih =>
    intro i out
    rw [readLines, List.length_cons, List.range'_succ, List.all_cons]
    cases h : a.read i with
    | line resp =>
      have hreply : a.repliesTo i = true := by rw [Attempt.repliesTo, h]
      rw [hreply, Bool.true_and]
      exact ih (i + 1) (out ++ [resp])
    | closed =>
      have hreply : a.repliesTo i = false := by rw [Attempt.repliesTo, h]
      rw [hreply, Bool.false_and]
      refine ⟨rfl, fun error he => ?_⟩
      obtain rfl := Except.error.inj he
      unfold pipelineEof
      split <;> exact ⟨_, rfl⟩
    | error e =>
      have hreply : a.repliesTo i = false := by rw [Attempt.repliesTo, h]
      rw [hreply, Bool.false_and]
      exact ⟨rfl, fun error he => ⟨e, (Except.error.inj he).symm⟩⟩
    | malformed e =>
      have hreply : a.repliesTo i = false := by rw [Attempt.repliesTo, h]
      rw [hreply, Bool.false_and]
      exact ⟨rfl, fun error he => ⟨e, (Except.error.inj he).symm⟩⟩

theorem exchangePipeline_spec (op : Op) (ops : List Op) (session : Bool)
    (ho : a.pipelineOpens session = true) :
    (exchangePipeline a startId (op :: ops)).2 = (writeLines a startId 0 (op :: ops)).2 ∧
    (exchangePipeline a startId (op :: ops)).1.isOk =
      a.pipelineAnswered session (op :: ops).length ∧
    ∀ error, (exchangePipeline a startId (op :: ops)).1 = .error error →
      (∃ e, error = .fatal e) ∧ a.pipelineRetries session = false ∨
      (∃ e, error = .retryable e) ∧ a.pipelineRetries session = true ∧
        ∀ w ∈ (exchangePipeline a startId (op :: ops)).2, w.complete = false := by
  have hok := writeLines_isOk a startId (op :: ops) 0
  have hread := readLines_spec a (op :: ops) 0 []
  rw [exchangePipeline, Attempt.pipelineAnswered, Attempt.pipelineRetries, ho,
    List.range_eq_range', ← hok, ← hread.1]
  have hfirst : (writeLines a startId 0 (op :: ops)).1.isOk = true → a.write 0 = .complete := by
    rw [hok, List.all_eq_true]
    exact fun h => of_decide_eq_true (h 0 (by simp))
  rcases hw : writeLines a startId 0 (op :: ops) with ⟨error | u, log⟩
  · refine ⟨rfl, rfl, fun e he => ?_⟩
    obtain rfl := Except.error.inj he
    rcases writeLines_error a startId op ops hw with ⟨h0, hf⟩ | ⟨h0, hr, hlog⟩
    · exact Or.inl ⟨hf, by simp [h0]⟩
    · refine Or.inr ⟨hr, ?_, hlog⟩
      cases hc : a.write 0 <;> simp_all
  · have h0 : a.write 0 = .complete := hfirst (by rw [hw]; rfl)
    cases hf : a.flush with
    | error error =>
      refine ⟨rfl, rfl, fun e he => Or.inl ⟨⟨error, (Except.error.inj he).symm⟩, by simp [h0]⟩⟩
    | ok u =>
      exact ⟨rfl, rfl, fun e he => Or.inl ⟨hread.2 e he, by simp [h0]⟩⟩

/-- A pipeline of at least one line never writes one of them twice. -/
theorem pipelineLoop_spec (c : AgentClient) (op : Op) (ops : List Op) (lastErr : String)
    (attempts : List Attempt) :
    let call := c.pipelineLoop startId (op :: ops) lastErr attempts
    WrittenOnce call.log ∧
    (∀ w ∈ call.log, ∃ j, (op :: ops)[j]? = some w.op ∧ w.id = startId + j) ∧
    call.result.isOk = pipelineLoopAnswered (op :: ops).length c.session attempts ∧
    call.client.nextId = c.nextId ∧ (call.result.isOk = true → call.client.session = true) := by
  induction attempts generalizing c lastErr with
  | nil => exact ⟨List.Pairwise.nil, by simp [pipelineLoop], rfl, rfl, fun h => by cases h⟩
  | cons a attempts ih =>
    rw [pipelineLoop, pipelineLoopAnswered]
    cases ho : (if c.session then .ok () else a.connect) with
    | error error =>
      have hopens : a.pipelineOpens c.session = false := by
        cases hs : c.session <;> simp_all [Attempt.pipelineOpens, Except.isOk, Except.toBool]
      simpa [Attempt.pipelineAnswered, Attempt.pipelineRetries, hopens] using
        ih { c with session := false } error
    | ok u =>
      have hopens : a.pipelineOpens c.session = true := by
        cases hs : c.session <;> simp_all [Attempt.pipelineOpens, Except.isOk, Except.toBool]
      obtain ⟨hlog, hok, herr⟩ := exchangePipeline_spec a startId op ops c.session hopens
      have hids := writeLines_log a startId (op :: ops) 0
      have honce := writeLines_writtenOnce a startId (op :: ops) 0
      simp only [Nat.add_zero, ← hlog] at hids honce
      rcases hx : exchangePipeline a startId (op :: ops) with ⟨error | resps, log⟩
      · rw [hx] at hok herr hids honce
        rw [← hok]
        rcases herr error rfl with ⟨⟨e, rfl⟩, hr⟩ | ⟨⟨e, rfl⟩, hr, hcut⟩
        · exact ⟨honce, hids, by rw [hr]; rfl, rfl, fun h => by cases h⟩
        · obtain ⟨k₁, k₂, k₃, k₄, k₅⟩ := ih { c with session := false } e
          refine ⟨List.pairwise_append.mpr ⟨honce, k₁, fun w hw w' _ hc => ?_⟩, ?_, ?_, k₄, k₅⟩
          · rw [hcut w hw] at hc
            cases hc
          · intro w hw
            exact (List.mem_append.mp hw).elim (hids w) (k₂ w)
          · rw [hr, Bool.true_and]
            exact k₃
      · rw [hx] at hok hids honce
        rw [← hok]
        exact ⟨honce, hids, rfl, rfl, fun _ => rfl⟩

end Pipeline

section Chunks

theorem rpcPipelineChunk_spec (c : AgentClient) (ops : List Op) (hne : ops ≠ [])
    (attempts : List Attempt) :
    let call := c.rpcPipelineChunk ops attempts
    (WrittenOnce call.log ↔ (ops.length = 1 → ResendFree c.session attempts)) ∧
    (∀ w ∈ call.log, ∃ j, ops[j]? = some w.op ∧ w.id = c.nextId + j) ∧
    call.result.isOk = chunkAnswered ops.length c.session attempts ∧
    call.client.nextId = c.nextId + ops.length ∧
    (call.result.isOk = true → call.client.session = true) := by
  match ops, hne with
  | [op], _ =>
    have hid := roundtripLoop_id { c with nextId := c.nextId + 1 } c.nextId op "" attempts
    have honce :=
      roundtripLoop_writtenOnce { c with nextId := c.nextId + 1 } c.nextId op "" attempts
    obtain ⟨k₁, k₂, k₃⟩ :=
      roundtripLoop_isOk { c with nextId := c.nextId + 1 } c.nextId op "" attempts
    have hmap : ((c.rpcOp op attempts).result.map fun resp => [resp]).isOk =
        (c.rpcOp op attempts).result.isOk := by
      cases (c.rpcOp op attempts).result <;> rfl
    refine ⟨?_, fun w hw => ⟨0, ?_, (hid w hw).1⟩, hmap.trans k₁, k₂, fun h => k₃ (hmap ▸ h)⟩
    · simp only [List.length_singleton, true_implies]
      exact honce
    · rw [(hid w hw).2]
      rfl
  | op :: op' :: ops, _ =>
    obtain ⟨k₁, k₂, k₃, k₄, k₅⟩ := pipelineLoop_spec c.nextId
      { c with nextId := c.nextId + (op :: op' :: ops).length } op (op' :: ops) "" attempts
    exact ⟨⟨fun _ h => absurd h (by simp), fun _ => k₁⟩, k₂, k₃, k₄, k₅⟩

theorem rpcPipelineChunks_spec (pieces : List (List Op)) (hne : ∀ ops ∈ pieces, ops ≠ []) :
    ∀ (c : AgentClient) (script : List (List Attempt)),
      (WrittenOnce (c.rpcPipelineChunks pieces script).log ↔
        ChunksResendFree c.session pieces script) ∧
      ∀ w ∈ (c.rpcPipelineChunks pieces script).log,
        ∃ j, pieces.flatten[j]? = some w.op ∧ w.id = c.nextId + j := by
  induction pieces with
  | nil => exact fun c script => ⟨by simp [rpcPipelineChunks, WrittenOnce, ChunksResendFree],
      by simp [rpcPipelineChunks]⟩
  | cons ops pieces ih =>
    intro c script
    obtain ⟨hops, hpieces⟩ := List.forall_mem_cons.mp hne
    obtain ⟨k₁, k₂, k₃, k₄, k₅⟩ := c.rpcPipelineChunk_spec ops hops (script.headD [])
    have hhead : ∀ w ∈ (c.rpcPipelineChunk ops (script.headD [])).log,
        ∃ j, j < ops.length ∧ ((ops :: pieces).flatten)[j]? = some w.op ∧ w.id = c.nextId + j := by
      intro w hw
      obtain ⟨j, hj, hid⟩ := k₂ w hw
      have hlt : j < ops.length := by
        by_contra hge
        rw [List.getElem?_eq_none (by omega)] at hj
        cases hj
      exact ⟨j, hlt, by rw [List.flatten_cons, List.getElem?_append_left hlt, hj], hid⟩
    rw [rpcPipelineChunks, ChunksResendFree, ← k₁, ← k₃]
    cases hres : (c.rpcPipelineChunk ops (script.headD [])).result with
    | error error =>
      refine ⟨⟨fun h => ⟨h, fun h => by cases h⟩, fun h => h.1⟩, fun w hw => ?_⟩
      obtain ⟨j, -, hj, hid⟩ := hhead w hw
      exact ⟨j, hj, hid⟩
    | ok resps =>
      have hsession := k₅ (by rw [hres]; rfl)
      obtain ⟨m₁, m₂⟩ := ih hpieces (c.rpcPipelineChunk ops (script.headD [])).client script.tail
      rw [hsession] at m₁
      rw [k₄] at m₂
      constructor
      · rw [WrittenOnce, List.pairwise_append]
        constructor
        · exact fun h => ⟨h.1, fun _ => m₁.mp h.2.1⟩
        · rintro ⟨hfirst, hrest⟩
          refine ⟨hfirst, m₁.mpr (hrest rfl), fun w hw w' hw' _ => ?_⟩
          -- the ids of later pieces start where those of this one end
          obtain ⟨j, hlt, -, hid⟩ := hhead w hw
          obtain ⟨j', -, hid'⟩ := m₂ w' hw'
          omega
      · intro w hw
        rcases List.mem_append.mp hw with hw | hw
        · obtain ⟨j, -, hj, hid⟩ := hhead w hw
          exact ⟨j, hj, hid⟩
        · obtain ⟨j, hj, hid⟩ := m₂ w hw
          refine ⟨ops.length + j, ?_, by omega⟩
          rw [List.flatten_cons, List.getElem?_append_right (by omega), Nat.add_sub_cancel_left, hj]

theorem rpcPipeline_eq_chunks (c : AgentClient) (ops : List Op) (script : List (List Attempt)) :
    c.rpcPipeline ops script = c.rpcPipelineChunks (chunks MAX_MAILBOX_DEPTH ops) script := by
  unfold rpcPipeline
  split_ifs with h
  · rfl
  · by_cases hne : ops = []
    · subst hne
      rfl
    · rw [chunks_of_length_le hne (by omega), rpcPipelineChunks]
      obtain ⟨result, client, log⟩ := c.rpcPipelineChunk ops (script.headD [])
      cases result with
      | error error => rfl
      | ok resps => simp [rpcPipelineChunks, Except.map]

/-- The lines a pipeline writes carry the ids of its ops, counted from the client's next id. -/
theorem rpcPipeline_log (c : AgentClient) (ops : List Op) (script : List (List Attempt)) :
    ∀ w ∈ (c.rpcPipeline ops script).log, ∃ j, ops[j]? = some w.op ∧ w.id = c.nextId + j := by
  have h := (rpcPipelineChunks_spec (chunks MAX_MAILBOX_DEPTH ops)
    (fun _ => ne_nil_of_mem_chunks (by decide)) c script).2
  rw [chunks_flatten (by decide)] at h
  rw [rpcPipeline_eq_chunks]
  exact h

/-- A call writes no line again exactly when its one-op round trips, alone or as the last piece of a
long pipeline, meet no failure after the line has gone out that leaves time for another write. -/
theorem writtenOnce_iff (c : AgentClient) :
    (∀ op attempts, WrittenOnce (c.rpcOp op attempts).log ↔ ResendFree c.session attempts) ∧
    ∀ ops script, WrittenOnce (c.rpcPipeline ops script).log ↔
      ChunksResendFree c.session (chunks MAX_MAILBOX_DEPTH ops) script := by
  constructor
  · intro op attempts
    exact roundtripLoop_writtenOnce { c with nextId := c.nextId + 1 } c.nextId op "" attempts
  · intro ops script
    rw [rpcPipeline_eq_chunks]
    exact (rpcPipelineChunks_spec (chunks MAX_MAILBOX_DEPTH ops)
      (fun _ => ne_nil_of_mem_chunks (by decide)) c script).1

/-- An attempt on a working connection on which the reply is replaced by `read`. -/
def attemptReading (read : ReadOutcome) : Attempt where
  connect := .ok ()
  setTimeout := .ok ()
  write := fun _ => .complete
  flush := .ok ()
  read := fun _ => read

theorem rpcOp_resends : ¬ ∀ (c : AgentClient) (op : Op) (attempts : List Attempt),
    WrittenOnce (c.rpcOp op attempts).log := by
  intro h
  have hlog := h ⟨"127.0.0.1:7878", 1, false⟩ (.click "todo-add" .semantic none)
    [attemptReading .closed, attemptReading (.line (.success "1"))]
  revert hlog
  decide

end Chunks

end AgentClient

end GpuiAgent
