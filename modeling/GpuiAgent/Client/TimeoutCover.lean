import GpuiAgent.Client.Timeouts

namespace GpuiAgent

open Framework

/-- A pipelined piece of two ops or more needs no more than the timeout of the client, and no more
than that of the session `live` of unknown timeout. -/
def PieceCovered (timeout : Nat) (live : Option Nat) (piece : List Op) : Prop :=
  2 ≤ piece.length → ∀ op ∈ piece,
    timeoutFor timeout op ≤ timeout ∧ ∀ t, live = some t → timeoutFor timeout op ≤ t

/-- The pieces of a run are covered in turn, up to the first op that is sent alone with `live`. -/
def PiecesCovered (timeout : Nat) : (live : Option Nat) → List (List Op) → Prop
  | _, [] => True
  | live, piece :: rest =>
    PieceCovered timeout live piece ∧
      PiecesCovered timeout (if piece.length = 1 then none else live) rest

/-- The session is `live`, or has at least the timeout of the client. -/
def SessionFrom (live : Option Nat) (c : TimedClient) : Prop :=
  ∀ t, c.session = some t → c.timeout ≤ t ∨ live = some t

namespace TimedClient

variable {c : TimedClient} {live : Option Nat} {piece : List Op}

/-- What a call keeps of a client whose waits are covered. -/
structure Kept {α : Type} (live : Option Nat) (c : TimedClient)
    (call : TimedCall (Except String α)) : Prop where
  kept : call.client.timeout = c.timeout
  waits : ∀ w ∈ call.waits, w.Covered c.timeout
  session : ∀ a, call.result = .ok a → SessionFrom live call.client

theorem kept_rpcOp (c : TimedClient) (op : Op) (attempts : List Attempt) :
    Kept none c (c.rpcOp op attempts) := by
  obtain ⟨ht, hs, -, hw⟩ := alone_rpcOp c op attempts
  refine ⟨ht, fun w h => ?_, fun resp h t hsome => ?_⟩
  · rw [hw w h]
    exact le_rfl
  · rw [hs resp h] at hsome
    obtain rfl := Option.some.inj hsome
    rw [ht]
    exact .inl (le_timeoutFor _ _)

/-- No op that is sent alone leaves a session of unknown timeout behind that was not there. -/
theorem sessionFrom_rpcOp (hlive : SessionFrom live c) (op : Op) (attempts : List Attempt) :
    SessionFrom live (c.rpcOp op attempts).client := by
  obtain ⟨ht, -, hafter, -⟩ := alone_rpcOp c op attempts
  intro t hsome
  rw [ht]
  rcases hafter with hafter | hafter | hafter
  · exact hlive t (hafter.symm.trans hsome)
  · cases hafter.symm.trans hsome
  · obtain rfl := Option.some.inj (hafter.symm.trans hsome)
    exact .inl (le_timeoutFor _ _)

theorem kept_pipelineRetry (hpiece : 2 ≤ piece.length) (hcov : PieceCovered c.timeout live piece)
    (hlive : SessionFrom live c) (attempts : List Attempt) :
    Kept live c (c.pipelineRetry piece attempts) := by
  obtain ⟨ht, hs, hw⟩ := piped_pipelineRetry c piece attempts
  refine ⟨ht, fun w h => ?_, fun resps h t hsome => ?_⟩
  · obtain ⟨hop, hread⟩ := hw w h
    obtain ⟨hneed, hneedLive⟩ := hcov hpiece w.op hop
    unfold ReplyWait.Covered
    rcases hread with hread | hread
    · rw [hread]
      cases hsession : c.session with
      | none => exact hneed
      | some t =>
        rcases hlive t hsession with hle | rfl
        · exact hneed.trans hle
        · exact hneedLive t rfl
    · rw [hread]
      exact hneed
  · rw [ht]
    rcases hs resps h with hs | hs
    · rw [hs] at hsome
      obtain rfl := Option.some.inj hsome
      cases hsession : c.session with
      | none => exact .inl le_rfl
      | some t => exact hlive t hsession
    · rw [hs] at hsome
      obtain rfl := Option.some.inj hsome
      exact .inl le_rfl

theorem kept_rpcPipelineChunk (hcov : PieceCovered c.timeout live piece)
    (hlive : SessionFrom live c) (attempts : List Attempt) :
    Kept (if piece.length = 1 then none else live) c (c.rpcPipelineChunk piece attempts) := by
  match piece with
  | [] => exact ⟨rfl, fun _ h => (by cases h), fun _ _ => hlive⟩
  | [op] =>
    obtain ⟨ht, hw, hs⟩ := kept_rpcOp c op attempts
    refine ⟨ht, hw, fun resps h => ?_⟩
    rw [rpcPipelineChunk] at h
    cases hres : (c.rpcOp op attempts).result with
    | error error =>
      rw [hres] at h
      cases h
    | ok resp => exact hs resp hres
  | op :: op' :: ops =>
    rw [if_neg (by simp)]
    exact kept_pipelineRetry (by simp) hcov hlive attempts

end TimedClient

/-- The ops that `rpc_pipeline` hands over together. -/
def pieces (ops : List Op) : List (List Op) :=
  if MAX_MAILBOX_DEPTH < ops.length then chunks MAX_MAILBOX_DEPTH ops else [ops]

theorem length_pieces_le (ops : List Op) : (pieces ops).length ≤ ops.length + 1 := by
  unfold pieces
  split_ifs
  · exact (length_chunks_le _ ops).trans (Nat.le_succ _)
  · simp

/-- What is left of the session `live` after pieces. -/
def liveAfter (live : Option Nat) (sent : List (List Op)) : Option Nat :=
  sent.foldl (fun live piece => if piece.length = 1 then none else live) live

theorem piecesCovered_append {timeout : Nat} (sent more : List (List Op)) :
    ∀ live : Option Nat, PiecesCovered timeout live (sent ++ more) ↔
      PiecesCovered timeout live sent ∧ PiecesCovered timeout (liveAfter live sent) more := by
  induction sent with
  | nil =>
    intro live
    simp [PiecesCovered, liveAfter]
  | cons piece sent ih =>
    intro live
    rw [List.cons_append, PiecesCovered, PiecesCovered, ih, and_assoc]
    rfl

namespace TimedClient

theorem kept_rpcPipelineChunks (sent : List (List Op)) :
    ∀ (c : TimedClient) (live : Option Nat) (script : List (List Attempt)),
      PiecesCovered c.timeout live sent → SessionFrom live c →
      Kept (liveAfter live sent) c (c.rpcPipelineChunks sent script) := by
  induction sent with
  | nil => exact fun c live script _ hlive => ⟨rfl, fun _ h => (by cases h), fun _ _ => hlive⟩
  | cons piece rest ih =>
    intro c live script hcov hlive
    obtain ⟨ht, hw, hs⟩ := kept_rpcPipelineChunk hcov.1 hlive (script.headD [])
    rw [rpcPipelineChunks]
    cases hres : (c.rpcPipelineChunk piece (script.headD [])).result with
    | error error => exact ⟨ht, hw, fun _ h => (by cases h)⟩
    | ok resps =>
      obtain ⟨ht', hw', hs'⟩ := ih (c.rpcPipelineChunk piece (script.headD [])).client
        (if piece.length = 1 then none else live) script.tail (by rw [ht]; exact hcov.2)
        (hs resps hres)
      rw [ht] at ht' hw'
      refine ⟨ht', fun w h => ?_, fun more h => ?_⟩
      · rcases List.mem_append.mp h with h | h
        · exact hw w h
        · exact hw' w h
      · dsimp only at h
        cases hmore : ((c.rpcPipelineChunk piece (script.headD [])).client.rpcPipelineChunks rest
            script.tail).result with
        | error error =>
          rw [hmore] at h
          cases h
        | ok resps' => exact hs' resps' hmore

/-- A pipeline goes out piece by piece. -/
theorem rpcPipeline_eq (c : TimedClient) (ops : List Op) (script : List (List Attempt)) :
    c.rpcPipeline ops script = c.rpcPipelineChunks (pieces ops) script := by
  unfold rpcPipeline pieces
  split_ifs
  · rfl
  · rw [rpcPipelineChunks]
    cases c.rpcPipelineChunk ops (script.headD []) with
    | mk result client log waits =>
      cases result with
      | error error => rfl
      | ok resps => simp [rpcPipelineChunks, Except.map]

/-- Waits are covered in a call if its pieces are. -/
theorem kept_rpcPipeline {c : TimedClient} {ops : List Op} {live : Option Nat}
    (hcov : PiecesCovered c.timeout live (pieces ops)) (hlive : SessionFrom live c)
    (script : List (List Attempt)) :
    Kept (liveAfter live (pieces ops)) c (c.rpcPipeline ops script) := by
  rw [rpcPipeline_eq]
  exact kept_rpcPipelineChunks _ c live script hcov hlive

end TimedClient

/-- Every line goes out and is answered. -/
def answeringAttempt : Attempt where
  connect := .ok ()
  setTimeout := .ok ()
  write := fun _ => .complete
  flush := .ok ()
  read := fun _ => .line (.success "")

/-- The session turns out to be gone. -/
def droppedAttempt : Attempt := { answeringAttempt with write := fun _ => .unsent "broken pipe" }

section Answering

theorem writeLines_answering (startId : Nat) (ops : List Op) :
    ∀ i, (writeLines answeringAttempt startId i ops).1 = .ok () := by
  induction ops with
  | nil => exact fun _ => rfl
  | cons op ops ih => exact fun i => ih (i + 1)

theorem readLines_answering (ops : List Op) : ∀ (i : Nat) (out : List Response),
    readLines answeringAttempt i ops out = .ok (out ++ ops.map fun _ => .success "") := by
  induction ops with
  | nil => exact fun i out => by rw [readLines, List.map_nil, List.append_nil]
  | cons op ops ih =>
    intro i out
    change readLines answeringAttempt (i + 1) ops (out ++ [.success ""]) = _
    rw [ih, List.append_assoc]
    rfl

theorem exchangePipeline_answering (startId : Nat) (ops : List Op) :
    (exchangePipeline answeringAttempt startId ops).1 = .ok (ops.map fun _ => .success "") := by
  have hwrite := writeLines_answering startId ops 0
  unfold exchangePipeline
  cases hlines : writeLines answeringAttempt startId 0 ops with
  | mk result log =>
    rw [hlines] at hwrite
    obtain rfl : result = .ok () := hwrite
    dsimp only [answeringAttempt]
    exact readLines_answering ops 0 []

theorem pipelineWaits_answering (ops : List Op) (t : Nat) :
    pipelineWaits answeringAttempt ops t = ops.map (ReplyWait.mk · t) := by
  have hread (ops : List Op) : ∀ i, readWaits answeringAttempt t i ops =
      ops.map (ReplyWait.mk · t) := by
    induction ops with
    | nil => exact fun _ => rfl
    | cons op ops ih =>
      exact fun i => congrArg (ReplyWait.mk op t :: ·) (ih (i + 1))
  unfold pipelineWaits
  rw [writeLines_answering]
  exact hread ops 0

end Answering

section Obliging

-- the timeout of the client, and the timeout at which a pipeline is read after a session
variable (timeout : Nat) (pick : Option Nat → Nat)

/-- The session after a piece that was answered. -/
def sessionAfter (session : Option Nat) : List Op → Option Nat
  | [] => session
  | [op] => some (timeoutFor timeout op)
  | _ => some (pick session)

/-- The pieces are covered where each pipeline is read at the timeout of `pick`. -/
def PickCovered : (session : Option Nat) → List (List Op) → Prop
  | _, [] => True
  | session, piece :: rest =>
    (2 ≤ piece.length → ∀ op ∈ piece, timeoutFor timeout op ≤ pick session) ∧
      PickCovered (sessionAfter timeout pick session piece) rest

/-- What a call with a piece comes to. -/
structure Obliged (c : TimedClient) (piece : List Op)
    (call : TimedCall (Except String (List Response))) : Prop where
  kept : call.client.timeout = c.timeout
  result : call.result = .ok (piece.map fun _ => .success "")
  session : call.client.session = sessionAfter timeout pick c.session piece
  waits : 2 ≤ piece.length → call.waits = piece.map (ReplyWait.mk · (pick c.session))

/-- Attempts that have every piece answered. -/
def Obliging (attempts : List Attempt) : Prop :=
  ∀ (c : TimedClient) (piece : List Op), c.timeout = timeout →
    Obliged timeout pick c piece (c.rpcPipelineChunk piece attempts)

end Obliging

namespace TimedClient

theorem roundtripLoop_answering (c : TimedClient) (id : Nat) (op : Op) (t : Nat)
    (lastErr : String) :
    (c.roundtripLoop id op t lastErr [answeringAttempt]).result = .ok (.success "") := by
  rw [roundtripLoop]
  cases hsession : c.session with
  | none => rfl
  | some t => rfl

theorem roundtripLoop_dropped (c : TimedClient) (id : Nat) (op : Op) (t : Nat)
    (lastErr : String) :
    (c.roundtripLoop id op t lastErr [droppedAttempt, answeringAttempt]).result =
      .ok (.success "") := by
  rw [roundtripLoop]
  cases hsession : c.session with
  | none => exact roundtripLoop_answering _ id op t "broken pipe"
  | some t => exact roundtripLoop_answering _ id op _ "broken pipe"

theorem pipelineLoop_answering (c : TimedClient) (startId : Nat) (ops : List Op)
    (lastErr : String) :
    let call := c.pipelineLoop startId ops lastErr [answeringAttempt]
    call.result = .ok (ops.map fun _ => .success "") ∧
      call.client.timeout = c.timeout ∧
      call.client.session = some (c.session.getD c.timeout) ∧
      call.waits = ops.map (ReplyWait.mk · (c.session.getD c.timeout)) := by
  have hex := exchangePipeline_answering startId ops
  have hopen : (if c.session.isSome then .ok () else answeringAttempt.connect) = .ok () := by
    split <;> rfl
  rw [pipelineLoop, hopen]
  dsimp only
  cases hout : exchangePipeline answeringAttempt startId ops with
  | mk result log =>
    rw [hout] at hex
    obtain rfl : result = _ := hex
    exact ⟨rfl, rfl, rfl, pipelineWaits_answering ops _⟩

theorem pipelineLoop_dropped (c : TimedClient) (startId : Nat) {ops : List Op} (hne : ops ≠ [])
    (lastErr : String) :
    let call := c.pipelineLoop startId ops lastErr [droppedAttempt, answeringAttempt]
    call.result = .ok (ops.map fun _ => .success "") ∧
      call.client.timeout = c.timeout ∧ call.client.session = some c.timeout ∧
      call.waits = ops.map (ReplyWait.mk · c.timeout) := by
  obtain ⟨op, ops, rfl⟩ := List.exists_cons_of_ne_nil hne
  have hopen : (if c.session.isSome then .ok () else droppedAttempt.connect) = .ok () := by
    split <;> rfl
  rw [pipelineLoop, hopen]
  exact pipelineLoop_answering { c with session := none } startId (op :: ops) "broken pipe"

end TimedClient

section Hosts

variable (timeout : Nat)

theorem obliged_alone (pick : Option Nat → Nat) {c : TimedClient} (op : Op)
    {attempts : List Attempt} (h : (c.rpcOp op attempts).result = .ok (.success "")) :
    Obliged c.timeout pick c [op] (c.rpcPipelineChunk [op] attempts) := by
  obtain ⟨ht, hs, -, -⟩ := TimedClient.alone_rpcOp c op attempts
  refine ⟨ht, ?_, hs _ h, fun hlen => absurd hlen (by simp)⟩
  exact congrArg (Except.map fun resp => [resp]) h

/-- A host that answers at once leaves a pipeline the session that there is. -/
theorem obliging_answering :
    Obliging timeout (fun session => session.getD timeout) [answeringAttempt] := by
  rintro c piece rfl
  match piece with
  | [] => exact ⟨rfl, rfl, rfl, fun h => absurd h (by simp)⟩
  | [op] => exact obliged_alone _ op (TimedClient.roundtripLoop_answering _ _ op _ "")
  | op :: op' :: ops =>
    obtain ⟨hres, hkept, hsession, hwaits⟩ := TimedClient.pipelineLoop_answering
      { c with nextId := c.nextId + (op :: op' :: ops).length } c.nextId (op :: op' :: ops) ""
    exact ⟨hkept, hres, hsession, fun _ => hwaits⟩

/-- A host that drops the session at each call has it opened again. -/
theorem obliging_dropping :
    Obliging timeout (fun _ => timeout) [droppedAttempt, answeringAttempt] := by
  rintro c piece rfl
  match piece with
  | [] => exact ⟨rfl, rfl, rfl, fun h => absurd h (by simp)⟩
  | [op] => exact obliged_alone _ op (TimedClient.roundtripLoop_dropped _ _ op _ "")
  | op :: op' :: ops =>
    obtain ⟨hres, hkept, hsession, hwaits⟩ := TimedClient.pipelineLoop_dropped
      { c with nextId := c.nextId + (op :: op' :: ops).length } c.nextId
      (List.cons_ne_nil op (op' :: ops)) ""
    exact ⟨hkept, hres, hsession, fun _ => hwaits⟩

end Hosts

/-- Between them the two hosts bring out what a run may come to wait for. -/
theorem piecesCovered_of_pickCovered {timeout : Nat} (sent : List (List Op)) :
    ∀ live session dropped : Option Nat, (live = none ∨ session = live) →
      PickCovered timeout (fun session => session.getD timeout) session sent →
      PickCovered timeout (fun _ => timeout) dropped sent → PiecesCovered timeout live sent := by
  induction sent with
  | nil => exact fun _ _ _ _ _ _ => trivial
  | cons piece rest ih =>
    intro live session dropped hlive hanswer hdrop
    refine ⟨fun hlen op hop => ⟨hdrop.1 hlen op hop, ?_⟩, ih _ _ _ ?_ hanswer.2 hdrop.2⟩
    · rintro t rfl
      rcases hlive with hlive | rfl
      · cases hlive
      · exact hanswer.1 hlen op hop
    · match piece with
      | [] => exact hlive
      | [op] => exact .inl rfl
      | _ :: _ :: _ =>
        rw [if_neg (by simp)]
        rcases hlive with rfl | rfl
        · exact .inl rfl
        · cases session with
          | none => exact .inl rfl
          | some t => exact .inr rfl

section Chunks

variable {timeout : Nat} {pick : Option Nat → Nat} {attempts : List Attempt}

/-- The session after pieces that were answered. -/
def sessionAfterAll (timeout : Nat) (pick : Option Nat → Nat) (session : Option Nat)
    (sent : List (List Op)) : Option Nat :=
  sent.foldl (sessionAfter timeout pick) session

theorem pickCovered_append (sent more : List (List Op)) : ∀ session : Option Nat,
    PickCovered timeout pick session (sent ++ more) ↔
      PickCovered timeout pick session sent ∧
        PickCovered timeout pick (sessionAfterAll timeout pick session sent) more := by
  induction sent with
  | nil =>
    intro session
    simp [PickCovered, sessionAfterAll]
  | cons piece sent ih =>
    intro session
    rw [List.cons_append, PickCovered, PickCovered, ih, and_assoc]
    rfl

/-- What a call with pieces comes to. -/
structure ObligedAll (timeout : Nat) (pick : Option Nat → Nat) (c : TimedClient)
    (sent : List (List Op)) (call : TimedCall (Except String (List Response))) : Prop where
  kept : call.client.timeout = c.timeout
  result : call.result = .ok (sent.flatten.map fun _ => .success "")
  session : call.client.session = sessionAfterAll timeout pick c.session sent
  waits : (∀ w ∈ call.waits, w.Covered timeout) → PickCovered timeout pick c.session sent

theorem obligedAll_rpcPipelineChunks (h : Obliging timeout pick attempts) (sent : List (List Op)) :
    ∀ (n : Nat) (c : TimedClient), sent.length ≤ n → c.timeout = timeout →
      ObligedAll timeout pick c sent (c.rpcPipelineChunks sent (List.replicate n attempts)) := by
  induction sent with
  | nil => exact fun n c _ _ => ⟨rfl, rfl, rfl, fun _ => trivial⟩
  | cons piece rest ih =>
    intro n c hn ht
    obtain ⟨n, rfl⟩ : ∃ m, n = m + 1 := ⟨n - 1, by rw [List.length_cons] at hn; omega⟩
    obtain ⟨hkept, hres, hsession, hwaits⟩ := h c piece ht
    obtain ⟨hkept', hres', hsession', hwaits'⟩ := ih n (c.rpcPipelineChunk piece attempts).client
      (Nat.le_of_succ_le_succ hn) (hkept.trans ht)
    rw [TimedClient.rpcPipelineChunks]
    dsimp only [List.replicate_succ, List.headD_cons, List.tail_cons]
    rw [hres]
    dsimp only
    refine ⟨hkept'.trans hkept, ?_, ?_, fun hcov => ?_⟩
    · rw [hres', List.flatten_cons, List.map_append]
      rfl
    · rw [hsession', hsession]
      rfl
    · obtain ⟨hfirst, hrest⟩ := List.forall_mem_append.mp hcov
      refine ⟨fun hlen op hop => ?_, ?_⟩
      · rw [hwaits hlen] at hfirst
        exact hfirst _ (List.mem_map_of_mem hop)
      · rw [hsession] at hwaits'
        exact hwaits' hrest

theorem obligedAll_rpcPipeline (h : Obliging timeout pick attempts) {c : TimedClient}
    {ops : List Op} {n : Nat} (hn : ops.length < n) (ht : c.timeout = timeout) :
    ObligedAll timeout pick c (pieces ops) (c.rpcPipeline ops (List.replicate n attempts)) := by
  rw [TimedClient.rpcPipeline_eq]
  exact obligedAll_rpcPipelineChunks h _ n c ((length_pieces_le ops).trans hn) ht

end Chunks

end GpuiAgent
