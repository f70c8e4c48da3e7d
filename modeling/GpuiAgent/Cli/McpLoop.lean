import GpuiAgent.Json
import GpuiAgent.Server.Ndjson

namespace GpuiAgent

open Framework

namespace Mcp

/-- The message with the outcome of a request. -/
def resultMessage (id result : Json) : Json :=
  .object [("id", id), ("jsonrpc", .string "2.0"), ("result", result)]

def errorMessage (id : Json) (code : Int) (message : String) : Json :=
  .object [("error", .object [("code", .number (.int code)), ("message", .string message)]),
    ("id", id), ("jsonrpc", .string "2.0")]

def initializeResult : Json :=
  .object [("capabilities", .object [("tools", .object [])]),
    ("protocolVersion", .string "2024-11-05"),
    ("serverInfo", .object [("name", .string "gpui-agent"), ("version", .string "0.1.0")])]

/-- The method of a message, empty where it has none. -/
def method (msg : Json) : String := ((msg.get "method").bind Json.asStr).getD ""

section Loop

variable {σ : Type}

-- `serde_json::from_slice`, the tool table, and what a tool call does with the client
variable (parse : List UInt8 → Except String Json) (tools : List Json)
  (toolsCallResult : σ → Json → Json × σ)

/-- What is written for a message, and the client after it. -/
def handleMessage (s : σ) (msg : Json) : List Json × σ :=
  let id := (msg.get "id").getD .null
  let params := (msg.get "params").getD .null
  match method msg with
  | "initialize" => ([resultMessage id initializeResult], s)
  | "notifications/initialized" => ([], s)
  | "tools/list" => ([resultMessage id (.object [("tools", .array tools)])], s)
  | "tools/call" =>
    let (result, s) := toolsCallResult s params
    ([resultMessage id result], s)
  | "ping" => ([resultMessage id (.object [])], s)
  | other => ([errorMessage id (-32601) s!"unknown method {other}"], s)

def handleLine (s : σ) (line : List UInt8) : List Json × σ :=
  if lineIsBlank line then ([], s)
  else match parse line with
    | .error err => ([errorMessage .null (-32700) err], s)
    | .ok msg => handleMessage tools toolsCallResult s msg

/-- The messages written for each line in turn. The loop ends with the input and at a line that
cannot be read. -/
def run (s : σ) : List LineRead → List (List Json)
  | .line line :: reads =>
    let (written, s) := handleLine parse tools toolsCallResult s line
    written :: run s reads
  | _ => []

end Loop

/-- The message on a line. -/
def message (parse : List UInt8 → Except String Json) (line : List UInt8) : Option Json :=
  if lineIsBlank line then none else (parse line).toOption

/-- An object with an id. -/
def IsRequest (msg : Json) : Prop := (msg.get "id").isSome

/-- An object with a method and no id. -/
def IsNotification (msg : Json) : Prop := (msg.get "method").isSome ∧ msg.get "id" = none

/-- A message with this id and either a result or an error. -/
structure IsReply (id msg : Json) : Prop where
  version : msg.get "jsonrpc" = some (.string "2.0")
  id : msg.get "id" = some id
  outcome : (msg.get "result").isSome ≠ (msg.get "error").isSome

/-- A request is answered once, under its id, and a notification is not answered. -/
structure Answered (msg : Json) (written : List Json) : Prop where
  request : ∀ id, msg.get "id" = some id → ∃ reply, written = [reply] ∧ IsReply id reply
  notification : IsNotification msg → written = []

/-- The method that is left unanswered is not that of a request, and every notification has it. -/
structure Expected (msg : Json) : Prop where
  request : IsRequest msg → method msg ≠ "notifications/initialized"
  notification : IsNotification msg → method msg = "notifications/initialized"

/-- The messages written for the lines of a stream in turn: each answers the message on its line. -/
structure Served (parse : List UInt8 → Except String Json) (lines : List (RawLine UInt8))
    (written : List (List Json)) : Prop where
  length_le : written.length ≤ lines.length
  answered : ∀ i line msg, lines[i]? = some line → message parse (lineContent line) = some msg →
    Answered msg (written.getD i [])

/-- The line is within the limit and is text. -/
def Readable (line : RawLine UInt8) : Prop :=
  (line.toList NEWLINE).length ≤ MAX_LINE_BYTES ∧
    ByteArray.validateUTF8 ⟨(lineContent line).toArray⟩ = true

instance : DecidablePred Readable := fun _ => inferInstanceAs (Decidable (_ ∧ _))

theorem isReply_result (id result : Json) : IsReply id (resultMessage id result) :=
  ⟨rfl, rfl, by simp [resultMessage, Json.get, List.lookup_cons]⟩

theorem isReply_error (id : Json) (code : Int) (message : String) :
    IsReply id (errorMessage id code message) :=
  ⟨rfl, rfl, by simp [errorMessage, Json.get, List.lookup_cons]⟩

theorem answered_nil_iff (msg : Json) : Answered msg [] ↔ ¬ IsRequest msg := by
  constructor
  · intro h hreq
    obtain ⟨id, hid⟩ := Option.isSome_iff_exists.mp hreq
    obtain ⟨reply, hreply, -⟩ := h.request id hid
    cases hreply
  · intro h
    refine ⟨fun id hid => ?_, fun _ => rfl⟩
    exact absurd (Option.isSome_of_mem hid) h

/-- One reply under the id is right for everything but a notification. -/
theorem answered_reply_iff {msg reply : Json} (h : IsReply ((msg.get "id").getD .null) reply) :
    Answered msg [reply] ↔ ¬ IsNotification msg := by
  constructor
  · intro hans hnot
    cases hans.notification hnot
  · intro hnot
    refine ⟨fun id hid => ⟨reply, rfl, ?_⟩, fun h => absurd h hnot⟩
    rw [hid] at h
    exact h

section Messages

variable {σ : Type} (parse : List UInt8 → Except String Json) (tools : List Json)
  (toolsCallResult : σ → Json → Json × σ)

/-- A message is left unanswered by its method alone, and otherwise answered once. -/
theorem handleMessage_cases (s : σ) (msg : Json) :
    (method msg = "notifications/initialized" ∧
      (handleMessage tools toolsCallResult s msg).1 = []) ∨
    (method msg ≠ "notifications/initialized" ∧
      ∃ reply, (handleMessage tools toolsCallResult s msg).1 = [reply] ∧
        IsReply ((msg.get "id").getD .null) reply) := by
  unfold handleMessage
  dsimp only
  split
  · next h => exact .inr ⟨by simp [h], _, rfl, isReply_result _ _⟩
  · next h => exact .inl ⟨h, rfl⟩
  · next h => exact .inr ⟨by simp [h], _, rfl, isReply_result _ _⟩
  · next h => exact .inr ⟨by simp [h], _, rfl, isReply_result _ _⟩
  · next h => exact .inr ⟨by simp [h], _, rfl, isReply_result _ _⟩
  · next h _ _ _ => exact .inr ⟨h, _, rfl, isReply_error _ _ _⟩

theorem answered_handleMessage_iff (s : σ) (msg : Json) :
    Answered msg (handleMessage tools toolsCallResult s msg).1 ↔ Expected msg := by
  rcases handleMessage_cases tools toolsCallResult s msg with ⟨hm, hw⟩ | ⟨hm, reply, hw, hreply⟩
  · rw [hw, answered_nil_iff]
    exact ⟨fun h => ⟨fun hreq => absurd hreq h, fun _ => hm⟩, fun h hreq => h.request hreq hm⟩
  · rw [hw, answered_reply_iff hreply]
    exact ⟨fun h => ⟨fun _ => hm, fun hnot => absurd hnot h⟩, fun h hnot => hm (h.notification hnot)⟩

/-- What is written for the lines of a stream, up to the first that cannot be read. -/
def writtenFor (s : σ) : List (RawLine UInt8) → List (List Json)
  | [] => []
  | line :: lines =>
    if Readable line then
      (handleLine parse tools toolsCallResult s (lineContent line)).1 ::
        writtenFor (handleLine parse tools toolsCallResult s (lineContent line)).2 lines
    else []

theorem run_eq_writtenFor (lines : List (RawLine UInt8)) :
    ∀ (fuel : Nat) (bytes : List UInt8) (s : σ), rawLines NEWLINE bytes = lines →
      bytes.length ≤ fuel →
      run parse tools toolsCallResult s (incomingLines MAX_LINE_BYTES fuel ⟨bytes, false⟩) =
        writtenFor parse tools toolsCallResult s lines := by
  induction lines with
  | nil =>
    intro fuel bytes s hlines _
    have hbytes := flatMap_rawLines NEWLINE bytes
    rw [hlines] at hbytes
    obtain rfl : [] = bytes := hbytes
    rw [incomingLines_enough (Nat.zero_le fuel)]
    rfl
  | cons line lines ih =>
    intro fuel bytes s hfirst hfuel
    have hpos := toList_length_pos hfirst
    obtain ⟨hlong, hshort, hrest⟩ := readLimitedLineInto_first hfirst MAX_LINE_BYTES
    obtain ⟨fuel, rfl⟩ : ∃ n, fuel = n + 1 := by
      cases fuel with
      | zero =>
        obtain rfl : bytes = [] := List.length_eq_zero_iff.mp (Nat.le_zero.mp hfuel)
        cases hfirst
      | succ fuel => exact ⟨fuel, rfl⟩
    have hend {read : LineRead} {err : String} {rest : Incoming}
        (h : readLimitedLineInto MAX_LINE_BYTES ⟨bytes, false⟩ = (read, rest))
        (herr : read = .invalidData err) :
        run parse tools toolsCallResult s (incomingLines MAX_LINE_BYTES (fuel + 1) ⟨bytes, false⟩) =
          [] := by
      subst herr
      rw [incomingLines, h]
      rfl
    rw [writtenFor]
    by_cases hfits : (line.toList NEWLINE).length ≤ MAX_LINE_BYTES
    · have hread := hshort hfits
      by_cases hutf8 : ByteArray.validateUTF8 ⟨(lineContent line).toArray⟩ = true
      · rw [utf8Read, if_pos hutf8] at hread
        rw [if_pos ⟨hfits, hutf8⟩, incomingLines, hread]
        dsimp only [run]
        rw [ih fuel _ _ hrest (by rw [List.length_drop]; omega)]
      · rw [utf8Read, if_neg hutf8] at hread
        rw [if_neg fun h => hutf8 h.2]
        exact hend hread rfl
    · rw [if_neg fun h => hfits h.1]
      exact hend rfl (hlong (Nat.not_le.mp hfits))

theorem length_writtenFor_le (s : σ) (lines : List (RawLine UInt8)) :
    (writtenFor parse tools toolsCallResult s lines).length ≤ lines.length := by
  induction lines generalizing s with
  | nil => exact le_rfl
  | cons line lines ih =>
    rw [writtenFor]
    split_ifs
    · exact Nat.succ_le_succ (ih _)
    · exact Nat.zero_le _

theorem handleLine_message {line : List UInt8} {msg : Json} (h : message parse line = some msg)
    (s : σ) :
    handleLine parse tools toolsCallResult s line = handleMessage tools toolsCallResult s msg := by
  unfold message at h
  unfold handleLine
  split_ifs at h ⊢ with hblank
  cases hparse : parse line with
  | error err =>
    rw [hparse] at h
    cases h
  | ok parsed =>
    rw [hparse] at h
    obtain rfl : parsed = msg := Option.some.inj h
    rfl

section Index

variable {lines : List (RawLine UInt8)} {i : Nat}

/-- A line is handled if every line up to it can be read. -/
theorem writtenFor_getD {line : RawLine UInt8} (hline : lines[i]? = some line)
    (hread : ∀ l ∈ lines.take (i + 1), Readable l) (s : σ) :
    ∃ s', (writtenFor parse tools toolsCallResult s lines).getD i [] =
      (handleLine parse tools toolsCallResult s' (lineContent line)).1 := by
  induction lines generalizing i s with
  | nil => cases hline
  | cons first lines ih =>
    rw [List.take_succ_cons, List.forall_mem_cons] at hread
    rw [writtenFor, if_pos hread.1]
    cases i with
    | zero =>
      obtain rfl : first = line := Option.some.inj hline
      exact ⟨s, rfl⟩
    | succ i => exact ih hline hread.2 _

/-- Nothing is written from the first line on that cannot be read. -/
theorem writtenFor_getD_unreadable (hread : ¬ ∀ l ∈ lines.take (i + 1), Readable l) (s : σ) :
    (writtenFor parse tools toolsCallResult s lines).getD i [] = [] := by
  induction lines generalizing i s with
  | nil => rfl
  | cons first lines ih =>
    rw [List.take_succ_cons, List.forall_mem_cons] at hread
    rw [writtenFor]
    by_cases hfirst : Readable first
    · rw [if_pos hfirst]
      have hrest := fun h => hread ⟨hfirst, h⟩
      cases i with
      | zero => exact absurd (by simp) hrest
      | succ i => exact ih hrest _
    · rw [if_neg hfirst]
      rfl

/-- What a message calls for is written for its line exactly if the loop gets there and the method
fits the kind of message, or does not get there and the message is no request. -/
theorem answered_writtenFor_iff {line : RawLine UInt8} {msg : Json} (hline : lines[i]? = some line)
    (hmsg : message parse (lineContent line) = some msg) (s : σ) :
    Answered msg ((writtenFor parse tools toolsCallResult s lines).getD i []) ↔
      ((∀ l ∈ lines.take (i + 1), Readable l) → Expected msg) ∧
        ((¬ ∀ l ∈ lines.take (i + 1), Readable l) → ¬ IsRequest msg) := by
  by_cases hread : ∀ l ∈ lines.take (i + 1), Readable l
  · obtain ⟨s', hs'⟩ := writtenFor_getD parse tools toolsCallResult hline hread s
    rw [hs', handleLine_message parse tools toolsCallResult hmsg, answered_handleMessage_iff]
    exact ⟨fun h => ⟨fun _ => h, fun hnot => absurd hread hnot⟩, fun h => h.1 hread⟩
  · rw [writtenFor_getD_unreadable parse tools toolsCallResult hread, answered_nil_iff]
    exact ⟨fun h => ⟨fun hr => absurd hr hread, fun _ => h⟩, fun h => h.2 hread⟩

end Index

/-- Over any input, every request is answered once and no notification is, exactly if
`notifications/initialized` is the method of every notification and of no request, as far as the
input can be read, and no request follows. -/
theorem served_iff (s : σ) (bytes : List UInt8) :
    Served parse (rawLines NEWLINE bytes)
        (run parse tools toolsCallResult s
          (incomingLines MAX_LINE_BYTES bytes.length ⟨bytes, false⟩)) ↔
      ∀ i line msg, (rawLines NEWLINE bytes)[i]? = some line →
        message parse (lineContent line) = some msg →
        ((∀ l ∈ (rawLines NEWLINE bytes).take (i + 1), Readable l) → Expected msg) ∧
          ((¬ ∀ l ∈ (rawLines NEWLINE bytes).take (i + 1), Readable l) → ¬ IsRequest msg) := by
  rw [run_eq_writtenFor parse tools toolsCallResult _ _ bytes s rfl le_rfl]
  constructor
  · intro h i line msg hline hmsg
    exact (answered_writtenFor_iff parse tools toolsCallResult hline hmsg s).mp
      (h.answered i line msg hline hmsg)
  · intro h
    refine ⟨length_writtenFor_le parse tools toolsCallResult s _, ?_⟩
    intro i line msg hline hmsg
    exact (answered_writtenFor_iff parse tools toolsCallResult hline hmsg s).mpr
      (h i line msg hline hmsg)

end Messages

def cancelledLine : String := "\x7b\"method\":\"notifications/cancelled\"\x7d"

def parseCancelled (line : List UInt8) : Except String Json :=
  if line = cancelledLine.toUTF8.toList then
    .ok (.object [("method", .string "notifications/cancelled")])
  else .error "expected value"

def cancelledInput : List UInt8 := cancelledLine.toUTF8.toList ++ [NEWLINE]

/-- A cancellation is answered with an error. -/
theorem not_served_cancelled :
    ¬ Served parseCancelled (rawLines NEWLINE cancelledInput)
      (run parseCancelled [] (fun (s : Unit) _ => (.null, s)) ()
        (incomingLines MAX_LINE_BYTES cancelledInput.length ⟨cancelledInput, false⟩)) := by
  have hlines : rawLines NEWLINE cancelledInput = [⟨cancelledLine.toUTF8.toList, true⟩] :=
    rawLines_ended (by decide +kernel) []
  have hread : ∀ l ∈ [(⟨cancelledLine.toUTF8.toList, true⟩ : RawLine UInt8)].take 1, Readable l := by
    decide +kernel
  have hmsg : message parseCancelled (lineContent ⟨cancelledLine.toUTF8.toList, true⟩) =
      some (.object [("method", .string "notifications/cancelled")]) := by
    decide +kernel
  rw [run_eq_writtenFor _ _ _ _ _ cancelledInput () rfl le_rfl, hlines]
  intro h
  have hmet := (answered_writtenFor_iff _ _ _ rfl hmsg ()).mp (h.answered 0 _ _ rfl hmsg)
  have hmethod := (hmet.1 hread).notification ⟨rfl, rfl⟩
  exact absurd hmethod (by decide)

end Mcp

end GpuiAgent
