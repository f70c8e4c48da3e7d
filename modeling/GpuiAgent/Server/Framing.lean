import GpuiAgent.Framework.Pipe
import GpuiAgent.Server.Session

namespace GpuiAgent

open Framework

def MAX_LINE_BYTES : Nat := 1024 * 1024

/-- Lines as they are written one after another. -/
def frame (lines : List (List UInt8)) : List UInt8 := lines.flatMap fun line => line ++ [NEWLINE]

/-- How a line is read that ends in a newline, whatever follows it. -/
def readOf (maxBytes : Nat) (line : List UInt8) : LineRead :=
  if maxBytes ≤ line.length then .invalidData "line too long"
  else
    let buf := stripNewline (line ++ [NEWLINE])
    if ByteArray.validateUTF8 ⟨buf.toArray⟩ then .line buf
    else .invalidData "line is not valid UTF-8"

/-- How lines in a row are read, up to the first that cannot be. -/
def lineReads (maxBytes : Nat) : List (List UInt8) → List LineRead
  | [] => []
  | line :: lines => match readOf maxBytes line with
    | .line buf => .line buf :: lineReads maxBytes lines
    | read => [read]

theorem frame_cons (line : List UInt8) (lines : List (List UInt8)) :
    frame (line :: lines) = line ++ NEWLINE :: frame lines := by
  simp [frame]

section Read

variable {line : List UInt8} (hline : NEWLINE ∉ line)

include hline

theorem takeWhile_line (rest : List UInt8) :
    (line ++ NEWLINE :: rest).takeWhile (· ≠ NEWLINE) = line := by
  rw [List.takeWhile_append_of_pos, List.takeWhile_cons_of_neg (by simp), List.append_nil]
  intro b hb
  simpa using fun h : b = NEWLINE => hline (h ▸ hb)

theorem dropWhile_line (rest : List UInt8) :
    (line ++ NEWLINE :: rest).dropWhile (· ≠ NEWLINE) = NEWLINE :: rest := by
  rw [List.dropWhile_append_of_pos, List.dropWhile_cons_of_neg (by simp)]
  intro b hb
  simpa using fun h : b = NEWLINE => hline (h ▸ hb)

/-- Reading stops at the newline, or at the cap. -/
theorem readUntilNewline_line (maxBytes : Nat) (rest : List UInt8) :
    readUntilNewline maxBytes (line ++ NEWLINE :: rest) =
      (line ++ [NEWLINE]).take (maxBytes + 1) := by
  unfold readUntilNewline
  by_cases hlong : maxBytes < line.length
  · have hwindow : (line ++ NEWLINE :: rest).take (maxBytes + 1) = line.take (maxBytes + 1) :=
      List.take_append_of_le_length hlong
    have hplain : ∀ b ∈ line.take (maxBytes + 1), (b ≠ NEWLINE) = true := by
      intro b hb
      simpa using fun h : b = NEWLINE => hline (h ▸ List.mem_of_mem_take hb)
    dsimp only
    rw [hwindow, List.take_append_of_le_length hlong, List.takeWhile_eq_self_iff.mpr,
      List.dropWhile_eq_nil_iff.mpr]
    · simp
    · simpa using hplain
    · simpa using hplain
  · obtain ⟨n, hn⟩ : ∃ n, maxBytes + 1 - line.length = n + 1 := ⟨maxBytes - line.length, by omega⟩
    have hwindow : (line ++ NEWLINE :: rest).take (maxBytes + 1) = line ++ NEWLINE :: rest.take n := by
      rw [List.take_append, List.take_of_length_le (by omega), hn, List.take_succ_cons]
    have hall : (line ++ [NEWLINE]).take (maxBytes + 1) = line ++ [NEWLINE] :=
      List.take_of_length_le (by simp; omega)
    dsimp only
    rw [hwindow, takeWhile_line hline, dropWhile_line hline, hall]
    rfl

theorem readLimitedLineInto_line (maxBytes : Nat) (rest : List UInt8) (failed : Bool) :
    (readLimitedLineInto maxBytes ⟨line ++ NEWLINE :: rest, failed⟩).1 = readOf maxBytes line ∧
      (line.length < maxBytes →
        (readLimitedLineInto maxBytes ⟨line ++ NEWLINE :: rest, failed⟩).2 = ⟨rest, failed⟩) := by
  unfold readLimitedLineInto readOf
  simp only [readUntilNewline_line hline]
  by_cases hlong : maxBytes ≤ line.length
  · have hlen : ((line ++ [NEWLINE]).take (maxBytes + 1)).length = maxBytes + 1 := by
      simp
      omega
    have hne : ((line ++ [NEWLINE]).take (maxBytes + 1)).isEmpty = false := by
      rw [List.isEmpty_eq_false_iff_exists_mem]
      exact List.exists_mem_of_length_pos (by omega)
    rw [hlen, hne, if_neg (by omega), if_neg (by simp), if_pos (by omega), if_pos hlong]
    exact ⟨rfl, fun h => absurd h (by omega)⟩
  · have htake : (line ++ [NEWLINE]).take (maxBytes + 1) = line ++ [NEWLINE] :=
      List.take_of_length_le (by simp; omega)
    have hdrop : (line ++ NEWLINE :: rest).drop (line ++ [NEWLINE]).length = rest := by simp
    rw [htake, hdrop, if_neg (by simp), if_neg (by simp), if_neg (by simp; omega), if_neg hlong]
    split_ifs
    · exact ⟨rfl, fun _ => rfl⟩
    · exact ⟨rfl, fun _ => rfl⟩

end Read

/-- A reader finds the lines that were written. -/
theorem incomingLines_frame (maxBytes : Nat) (failed : Bool) (lines : List (List UInt8)) :
    ∀ fuel, (frame lines).length ≤ fuel → (∀ line ∈ lines, NEWLINE ∉ line) →
      incomingLines maxBytes fuel ⟨frame lines, failed⟩ = lineReads maxBytes lines := by
  induction lines with
  | nil =>
    intro fuel _ _
    rw [incomingLines_enough (Nat.zero_le fuel)]
    rfl
  | cons line lines ih =>
    intro fuel hfuel hlines
    obtain ⟨hline, hrest⟩ := List.forall_mem_cons.mp hlines
    rw [frame_cons] at hfuel ⊢
    rw [List.length_append, List.length_cons] at hfuel
    obtain ⟨fuel, rfl⟩ : ∃ n, fuel = n + 1 := ⟨fuel - 1, by omega⟩
    obtain ⟨hread, hnext⟩ := readLimitedLineInto_line hline maxBytes (frame lines) failed
    rw [incomingLines, lineReads, ← hread]
    cases hr : readLimitedLineInto maxBytes ⟨line ++ NEWLINE :: frame lines, failed⟩ with
    | mk read rest =>
      rw [hr] at hread hnext
      cases read with
      | line buf =>
        have hshort : line.length < maxBytes := by
          by_contra hlong
          rw [readOf, if_pos (by omega)] at hread
          cases hread
        obtain rfl := hnext hshort
        dsimp only
        rw [ih fuel (by omega) hrest]
      | eof =>
        unfold readOf at hread
        dsimp only at hread
        split_ifs at hread
      | invalidData err => rfl
      | failed =>
        unfold readOf at hread
        dsimp only at hread
        split_ifs at hread

/-- The replies of the host's loop to lines written one after another are those to the lines in
turn. -/
theorem handleStreamHost_frame {σ : Type} (env : Env) (parse : List UInt8 → Except String Request)
    (token : Option String) (host : AgentHost σ) (others : Nat → σ → σ) (polls : Nat → Nat)
    (maxBytes : Nat) (randomNonce nonce : Option (List UInt8))
    (started : beginSession token randomNonce = some nonce) (s : σ) (failed : Bool)
    (lines : List (List UInt8)) (hlines : ∀ line ∈ lines, NEWLINE ∉ line) :
    (handleStreamHost env parse token host others polls maxBytes randomNonce s
        ⟨frame lines, failed⟩).filterMap SessionEvent.resp =
      (serveAll (serveLine (fun line => judgeLine env parse token nonce (readOf maxBytes line))
        (serveHost env token nonce host others polls) endsSession) (some (0, (s, {}))) lines).1 := by
  unfold handleStreamHost
  rw [started]
  dsimp only
  rw [incomingLines_frame maxBytes failed lines _ le_rfl hlines, ← serveAll_serveLine]
  -- the session takes nothing after a line that cannot be read
  generalize (0, (s, ({} : TreeCache))) = state
  clear hlines
  induction lines generalizing state with
  | nil => rfl
  | cons line lines ih =>
    have hserve : ∀ read, readOf maxBytes line = read →
        serveLine (judgeLine env parse token nonce) (serveHost env token nonce host others polls)
          endsSession state read =
        serveLine (fun line => judgeLine env parse token nonce (readOf maxBytes line))
          (serveHost env token nonce host others polls) endsSession state line := by
      rintro _ rfl
      rfl
    rw [lineReads, serveAll_cons]
    cases hread : readOf maxBytes line with
    | line buf =>
      dsimp only
      rw [serveAll_cons, hserve _ hread]
      dsimp only
      cases (serveLine (fun line => judgeLine env parse token nonce (readOf maxBytes line))
        (serveHost env token nonce host others polls) endsSession state line).2 with
      | none => simp only [serveAll_none]
      | some next => rw [ih next]
    | invalidData err =>
      dsimp only
      have hrefuse : serveLine (fun line => judgeLine env parse token nonce (readOf maxBytes line))
          (serveHost env token nonce host others polls) endsSession state line =
            (some (.err "?" s!"bad request: {err}"), none) := by
        refine serveLine_refuse ?_
        rw [hread]
        rfl
      rw [serveAll_cons, hserve _ hread, hrefuse]
      simp only [serveAll_none]
    | eof =>
      unfold readOf at hread
      dsimp only at hread
      split_ifs at hread
    | failed =>
      unfold readOf at hread
      dsimp only at hread
      split_ifs at hread

end GpuiAgent
