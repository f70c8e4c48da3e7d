import GpuiAgent.Client.Delivery

namespace GpuiAgent

open Framework

namespace AgentClient

section Answers

theorem readLines_length {a : Attempt} (ops : List Op) : ∀ {i : Nat} {out resps : List Response},
    readLines a i ops out = .ok resps → resps.length = out.length + ops.length := by
  induction ops with
  | nil =>
    intro i out resps h
    obtain rfl := Except.ok.inj h
    rfl
  | cons op ops ih =>
    intro i out resps h
    rw [readLines] at h
    cases hread : a.read i with
    | line resp =>
      rw [hread] at h
      have := ih h
      rw [List.length_append, List.length_singleton] at this
      rw [List.length_cons]
      omega
    | closed => simp [hread] at h
    | error e => simp [hread] at h
    | malformed e => simp [hread] at h

theorem exchangePipeline_length {a : Attempt} {startId : Nat} {ops : List Op}
    {resps : List Response} {log : List LineWrite}
    (h : exchangePipeline a startId ops = (.ok resps, log)) : resps.length = ops.length := by
  unfold exchangePipeline at h
  split at h
  · cases h
  · split at h
    · cases h
    · obtain ⟨hread, -⟩ := Prod.mk.inj h
      have := readLines_length ops hread
      rwa [List.length_nil, Nat.zero_add] at this

theorem pipelineLoop_length {startId : Nat} {ops : List Op} (attempts : List Attempt) :
    ∀ {c : AgentClient} {lastErr : String} {resps : List Response},
      (c.pipelineLoop startId ops lastErr attempts).result = .ok resps →
        resps.length = ops.length := by
  induction attempts with
  | nil =>
    intro c lastErr resps h
    cases h
  | cons a attempts ih =>
    intro c lastErr resps h
    rw [pipelineLoop] at h
    split at h
    · exact ih h
    · split at h
      next resps' log heq =>
        obtain rfl := Except.ok.inj h
        exact exchangePipeline_length heq
      next => cases h
      next => exact ih h

theorem rpcPipelineChunk_length {c : AgentClient} {ops : List Op} {attempts : List Attempt}
    {resps : List Response} (h : (c.rpcPipelineChunk ops attempts).result = .ok resps) :
    resps.length = ops.length := by
  unfold rpcPipelineChunk at h
  split at h
  next =>
    obtain rfl := Except.ok.inj h
    rfl
  next op =>
    dsimp only at h
    cases hres : (c.rpcOp op attempts).result with
    | error e =>
      rw [hres] at h
      cases h
    | ok resp =>
      rw [hres] at h
      obtain rfl := Except.ok.inj h
      rfl
  next => exact pipelineLoop_length attempts h

theorem rpcPipelineChunks_length (pieces : List (List Op)) :
    ∀ {c : AgentClient} {script : List (List Attempt)} {resps : List Response},
      (c.rpcPipelineChunks pieces script).result = .ok resps →
        resps.length = pieces.flatten.length := by
  induction pieces with
  | nil =>
    intro c script resps h
    obtain rfl := Except.ok.inj h
    rfl
  | cons ops pieces ih =>
    intro c script resps h
    rw [rpcPipelineChunks] at h
    cases hres : (c.rpcPipelineChunk ops (script.headD [])).result with
    | error e =>
      rw [hres] at h
      cases h
    | ok first =>
      simp only [hres] at h
      cases hmore : ((c.rpcPipelineChunk ops (script.headD [])).client.rpcPipelineChunks pieces
          script.tail).result with
      | error e =>
        rw [hmore] at h
        cases h
      | ok rest =>
        rw [hmore] at h
        obtain rfl := Except.ok.inj h
        rw [List.length_append, rpcPipelineChunk_length hres, ih hmore, List.flatten_cons,
          List.length_append]

/-- A pipeline that succeeds has one reply for each op. -/
theorem rpcPipeline_length {c : AgentClient} {ops : List Op} {script : List (List Attempt)}
    {resps : List Response} (h : (c.rpcPipeline ops script).result = .ok resps) :
    resps.length = ops.length := by
  unfold rpcPipeline at h
  split_ifs at h
  · have := rpcPipelineChunks_length _ h
    rwa [chunks_flatten (by decide)] at this
  · exact rpcPipelineChunk_length h

end Answers

end AgentClient

end GpuiAgent
