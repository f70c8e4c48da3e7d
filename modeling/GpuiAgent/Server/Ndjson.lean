import GpuiAgent.Client.Wire
import GpuiAgent.Framework.Lines

namespace GpuiAgent

open Framework

/-- How the values of a type are written and parsed. What is written has no control bytes. -/
structure LineCodec (ν : Type*) where
  toWriter : ν → List UInt8
  parse : List UInt8 → Except String ν
  plain : ∀ value, ∀ b ∈ toWriter value, 32 ≤ b
  utf8 : ∀ value, ByteArray.validateUTF8 ⟨(toWriter value).toArray⟩ = true

/-- The bytes that `write_json_line` writes. -/
def writeJsonLine {ν : Type*} (codec : LineCodec ν) (value : ν) : List UInt8 :=
  codec.toWriter value ++ [NEWLINE]

/-- `read_limited_line_into` with its limit of `max_bytes as u64 + 1` bytes, which wraps. -/
def readLimitedLineU64 (maxBytes : UInt64) (input : Incoming) : LineRead × Incoming :=
  if maxBytes + 1 = 0 then (.eof, input) else readLimitedLineInto maxBytes.toNat input

/-- What a reader gets of a stream, up to the first line that is rejected. -/
def limitedLines (maxBytes : UInt64) : (fuel : Nat) → Incoming → List LineRead
  | 0, _ => []
  | fuel + 1, input => match readLimitedLineU64 maxBytes input with
    | (.line buf, rest) => .line buf :: limitedLines maxBytes fuel rest
    | (.invalidData err, _) => [.invalidData err]
    | (.eof, _) | (.failed, _) => []

/-- A line without its `\n` or `\r\n`. -/
def lineContent (line : RawLine UInt8) : List UInt8 :=
  if line.ended ∧ line.body.getLast? = some CARRIAGE_RETURN then line.body.dropLast else line.body

/-- The content of the line is at most `maxBytes` long and valid UTF-8. -/
def Acceptable (maxBytes : UInt64) (line : RawLine UInt8) : Prop :=
  (lineContent line).length ≤ maxBytes.toNat ∧
    ByteArray.validateUTF8 ⟨(lineContent line).toArray⟩ = true

/-- The line is at most `maxBytes` long with its terminator. -/
def FitsEnded (maxBytes : UInt64) (line : RawLine UInt8) : Prop :=
  (line.toList NEWLINE).length ≤ maxBytes.toNat

/-- The read that a stream's first line calls for. -/
def ReadsFirst (maxBytes : UInt64) (bytes : List UInt8) : Prop :=
  match rawLines NEWLINE bytes with
  | [] => readLimitedLineU64 maxBytes ⟨bytes, false⟩ = (.eof, ⟨[], false⟩)
  | line :: _ =>
    let read := readLimitedLineU64 maxBytes ⟨bytes, false⟩
    (Acceptable maxBytes line →
      read = (.line (lineContent line), ⟨bytes.drop (line.toList NEWLINE).length, false⟩)) ∧
    (¬ Acceptable maxBytes line → ∃ err, read.1 = .invalidData err)

/-- The first line fits with its terminator, or is not acceptable. -/
def FirstFits (maxBytes : UInt64) : List (RawLine UInt8) → Prop
  | [] => True
  | line :: _ => maxBytes + 1 ≠ 0 ∧ (Acceptable maxBytes line → FitsEnded maxBytes line)

/-- The reads that a stream's lines call for, up to the first rejection. -/
inductive Framed (maxBytes : UInt64) : List (RawLine UInt8) → List LineRead → Prop
  | done : Framed maxBytes [] []
  | accept {line lines reads} : Acceptable maxBytes line → Framed maxBytes lines reads →
      Framed maxBytes (line :: lines) (.line (lineContent line) :: reads)
  | reject {line lines err} : ¬ Acceptable maxBytes line →
      Framed maxBytes (line :: lines) [.invalidData err]

/-- Every line up to the first that is not acceptable either is not, or fits with its terminator. -/
def TerminatorsFit (maxBytes : UInt64) : List (RawLine UInt8) → Prop
  | [] => True
  | line :: lines =>
    maxBytes + 1 ≠ 0 ∧ (Acceptable maxBytes line →
      FitsEnded maxBytes line ∧ TerminatorsFit maxBytes lines)

/-- How a line that fits with its terminator is read. -/
def utf8Read (buf : List UInt8) : LineRead :=
  if ByteArray.validateUTF8 ⟨buf.toArray⟩ then .line buf else .invalidData "line is not valid UTF-8"

theorem stripNewline_ended (body : List UInt8) :
    stripNewline (body ++ [NEWLINE]) = lineContent ⟨body, true⟩ := by
  unfold stripNewline lineContent
  rw [List.getLast?_concat, if_pos rfl, List.dropLast_concat]
  simp

theorem readOf_eq (maxBytes : Nat) (body : List UInt8) :
    readOf maxBytes body =
      if maxBytes ≤ body.length then .invalidData "line too long"
      else utf8Read (lineContent ⟨body, true⟩) := by
  rw [readOf, stripNewline_ended]
  rfl

theorem readUntilNewline_open {body : List UInt8} (h : NEWLINE ∉ body) (maxBytes : Nat) :
    readUntilNewline maxBytes body = body.take (maxBytes + 1) := by
  have hplain : ∀ b ∈ body.take (maxBytes + 1), (b ≠ NEWLINE) = true := by
    intro b hb
    simpa using fun hb' : b = NEWLINE => h (hb' ▸ List.mem_of_mem_take hb)
  unfold readUntilNewline
  dsimp only
  rw [List.takeWhile_eq_self_iff.mpr (by simpa using hplain),
    List.dropWhile_eq_nil_iff.mpr (by simpa using hplain)]
  simp

/-- A last line without a newline is read as it is. -/
theorem readLimitedLineInto_open {body : List UInt8} (hne : body ≠ []) (h : NEWLINE ∉ body)
    (maxBytes : Nat) :
    (maxBytes < body.length →
      (readLimitedLineInto maxBytes ⟨body, false⟩).1 = .invalidData "line too long") ∧
    (body.length ≤ maxBytes →
      readLimitedLineInto maxBytes ⟨body, false⟩ = (utf8Read body, ⟨[], false⟩)) := by
  have hpos : 0 < body.length := List.length_pos_iff.mpr hne
  unfold readLimitedLineInto
  rw [readUntilNewline_open h]
  constructor
  · intro hlong
    have hlen : (body.take (maxBytes + 1)).length = maxBytes + 1 := by
      rw [List.length_take]
      omega
    have hnonempty : (body.take (maxBytes + 1)).isEmpty = false := by
      rw [List.isEmpty_eq_false_iff_exists_mem]
      exact List.exists_mem_of_length_pos (by omega)
    dsimp only
    rw [hlen, hnonempty, if_neg (by simp), if_neg (by simp), if_pos (by omega)]
  · intro hshort
    have hlast : body.getLast? ≠ some NEWLINE := fun hl => h (List.mem_of_getLast? hl)
    have hstrip : stripNewline body = body := by rw [stripNewline, if_neg hlast]
    dsimp only
    rw [List.take_of_length_le (by omega), if_neg (by simp), if_neg (by simpa using hne),
      if_neg (by omega), hstrip, List.drop_length]
    unfold utf8Read
    split_ifs <;> rfl

section FirstLine

variable {bytes : List UInt8} {line : RawLine UInt8} {lines : List (RawLine UInt8)}

/-- The first line is read as it is where it fits with its terminator, and the rest is left. -/
theorem readLimitedLineInto_first (hfirst : rawLines NEWLINE bytes = line :: lines)
    (maxBytes : Nat) :
    (maxBytes < (line.toList NEWLINE).length →
      (readLimitedLineInto maxBytes ⟨bytes, false⟩).1 = .invalidData "line too long") ∧
    ((line.toList NEWLINE).length ≤ maxBytes →
      readLimitedLineInto maxBytes ⟨bytes, false⟩ =
        (utf8Read (lineContent line), ⟨bytes.drop (line.toList NEWLINE).length, false⟩)) ∧
    rawLines NEWLINE (bytes.drop (line.toList NEWLINE).length) = lines := by
  induction bytes using rawLines_induction NEWLINE with
  | nil => cases hfirst
  | ended body rest hbody =>
    rw [rawLines_ended hbody] at hfirst
    obtain ⟨rfl, rfl⟩ := List.cons.inj hfirst
    obtain ⟨hread, hrest⟩ := readLimitedLineInto_line hbody maxBytes rest false
    have hlen : (RawLine.toList NEWLINE ⟨body, true⟩).length = body.length + 1 := by
      simp [RawLine.toList]
    have hdrop : (body ++ NEWLINE :: rest).drop (body.length + 1) = rest := by simp
    rw [readOf_eq] at hread
    rw [hlen, hdrop]
    refine ⟨fun hlong => ?_, fun hshort => ?_, rfl⟩
    · rw [hread, if_pos (by omega)]
    · rw [if_neg (by omega)] at hread
      exact Prod.ext hread (hrest (by omega))
  | last body hne hbody =>
    rw [rawLines_open hne hbody] at hfirst
    obtain ⟨rfl, rfl⟩ := List.cons.inj hfirst
    have hlist : RawLine.toList NEWLINE ⟨body, false⟩ = body := by simp [RawLine.toList]
    have hcontent : lineContent ⟨body, false⟩ = body := by simp [lineContent]
    obtain ⟨hlong, hshort⟩ := readLimitedLineInto_open hne hbody maxBytes
    rw [hlist, hcontent, List.drop_length]
    exact ⟨hlong, hshort, rfl⟩

theorem toList_length_pos (hfirst : rawLines NEWLINE bytes = line :: lines) :
    0 < (line.toList NEWLINE).length := by
  obtain ⟨-, -, hrest⟩ := readLimitedLineInto_first hfirst 0
  rw [Nat.pos_iff_ne_zero]
  intro hzero
  rw [hzero, List.drop_zero, hfirst] at hrest
  simp at hrest

end FirstLine

theorem length_lineContent_le (line : RawLine UInt8) :
    (lineContent line).length ≤ (line.toList NEWLINE).length := by
  unfold lineContent RawLine.toList
  split_ifs <;> simp
  omega

section Fits

variable {maxBytes : UInt64} {line : RawLine UInt8}

/-- Only the UTF-8 of a line that fits with its terminator is still open. -/
theorem FitsEnded.read (h : FitsEnded maxBytes line) :
    (Acceptable maxBytes line ∧ utf8Read (lineContent line) = .line (lineContent line)) ∨
    (¬ Acceptable maxBytes line ∧
      utf8Read (lineContent line) = .invalidData "line is not valid UTF-8") := by
  have hlen : (lineContent line).length ≤ maxBytes.toNat := (length_lineContent_le line).trans h
  unfold Acceptable utf8Read
  by_cases hutf8 : ByteArray.validateUTF8 ⟨(lineContent line).toArray⟩ = true
  · exact .inl ⟨⟨hlen, hutf8⟩, if_pos hutf8⟩
  · exact .inr ⟨fun ha => hutf8 ha.2, if_neg hutf8⟩

end Fits

section Reads

variable {maxBytes : UInt64}

theorem readLimitedLineU64_wraps (h : maxBytes + 1 = 0) (input : Incoming) :
    readLimitedLineU64 maxBytes input = (.eof, input) := if_pos h

theorem readLimitedLineU64_eq (h : maxBytes + 1 ≠ 0) (input : Incoming) :
    readLimitedLineU64 maxBytes input = readLimitedLineInto maxBytes.toNat input := if_neg h

/-- The first line is read as it should be exactly if it fits with its terminator, or is not
acceptable. -/
theorem readsFirst_iff (bytes : List UInt8) :
    ReadsFirst maxBytes bytes ↔ FirstFits maxBytes (rawLines NEWLINE bytes) := by
  unfold ReadsFirst
  cases hfirst : rawLines NEWLINE bytes with
  | nil =>
    have hbytes := flatMap_rawLines NEWLINE bytes
    rw [hfirst] at hbytes
    obtain rfl : [] = bytes := hbytes
    refine iff_of_true ?_ trivial
    by_cases hwrap : maxBytes + 1 = 0
    · exact readLimitedLineU64_wraps hwrap _
    · rw [readLimitedLineU64_eq hwrap]
      simp [readLimitedLineInto, readUntilNewline]
  | cons line lines =>
    dsimp only [FirstFits]
    by_cases hwrap : maxBytes + 1 = 0
    · rw [readLimitedLineU64_wraps hwrap]
      refine iff_of_false ?_ fun h => h.1 hwrap
      rintro ⟨haccept, hreject⟩
      by_cases hacc : Acceptable maxBytes line
      · cases haccept hacc
      · obtain ⟨err, herr⟩ := hreject hacc
        cases herr
    · rw [readLimitedLineU64_eq hwrap]
      obtain ⟨hlong, hshort, -⟩ := readLimitedLineInto_first hfirst maxBytes.toNat
      by_cases hfits : FitsEnded maxBytes line
      · rw [hshort hfits]
        refine iff_of_true ?_ ⟨hwrap, fun _ => hfits⟩
        rcases hfits.read with ⟨hacc, hread⟩ | ⟨hacc, hread⟩
        · rw [hread]
          exact ⟨fun _ => rfl, fun h => absurd hacc h⟩
        · rw [hread]
          exact ⟨fun h => absurd h hacc, fun _ => ⟨_, rfl⟩⟩
      · have herr := hlong (Nat.not_le.mp hfits)
        constructor
        · intro h
          refine ⟨hwrap, fun hacc => ?_⟩
          rw [h.1 hacc] at herr
          cases herr
        · intro h
          exact ⟨fun hacc => absurd (h.2 hacc) hfits, fun _ => ⟨_, herr⟩⟩

theorem limitedLines_nil (fuel : Nat) : limitedLines maxBytes fuel ⟨[], false⟩ = [] := by
  cases fuel with
  | zero => rfl
  | succ fuel =>
    have heof : readLimitedLineU64 maxBytes ⟨[], false⟩ = (.eof, ⟨[], false⟩) :=
      (readsFirst_iff []).mpr trivial
    rw [limitedLines, heof]

/-- Line after line, a stream is read as it should be exactly up to a line that is acceptable and
does not fit with its terminator. -/
theorem framed_iff (lines : List (RawLine UInt8)) : ∀ (fuel : Nat) (bytes : List UInt8),
    rawLines NEWLINE bytes = lines → bytes.length ≤ fuel →
    (Framed maxBytes lines (limitedLines maxBytes fuel ⟨bytes, false⟩) ↔
      TerminatorsFit maxBytes lines) := by
  induction lines with
  | nil =>
    intro fuel bytes hlines _
    have hbytes := flatMap_rawLines NEWLINE bytes
    rw [hlines] at hbytes
    obtain rfl : [] = bytes := hbytes
    rw [limitedLines_nil]
    exact iff_of_true .done trivial
  | cons line lines ih =>
    intro fuel bytes hfirst hfuel
    have hpos := toList_length_pos hfirst
    obtain ⟨fuel, rfl⟩ : ∃ n, fuel = n + 1 := by
      cases fuel with
      | zero =>
        obtain rfl : bytes = [] := List.length_eq_zero_iff.mp (Nat.le_zero.mp hfuel)
        cases hfirst
      | succ fuel => exact ⟨fuel, rfl⟩
    rw [limitedLines]
    by_cases hwrap : maxBytes + 1 = 0
    · rw [readLimitedLineU64_wraps hwrap]
      refine iff_of_false ?_ fun h => h.1 hwrap
      intro h
      cases h
    · rw [readLimitedLineU64_eq hwrap]
      obtain ⟨hlong, hshort, hrest⟩ := readLimitedLineInto_first hfirst maxBytes.toNat
      by_cases hfits : FitsEnded maxBytes line
      · rw [hshort hfits]
        rcases hfits.read with ⟨hacc, hutf8⟩ | ⟨hacc, hutf8⟩
        · -- the line and its terminator are off the stream, and less fuel is enough for the rest
          have hstep := ih fuel _ hrest (by rw [List.length_drop]; omega)
          rw [hutf8]
          dsimp only
          constructor
          · rintro (_ | ⟨_, htail⟩)
            exact ⟨hwrap, fun _ => ⟨hfits, hstep.mp htail⟩⟩
          · intro h
            exact .accept hacc (hstep.mpr (h.2 hacc).2)
        · rw [hutf8]
          exact iff_of_true (.reject hacc) ⟨hwrap, fun h => absurd h hacc⟩
      · have herr := hlong (Nat.not_le.mp hfits)
        cases hr : readLimitedLineInto maxBytes.toNat ⟨bytes, false⟩ with
        | mk read rest =>
          rw [hr] at herr
          obtain rfl := herr
          dsimp only
          by_cases hacc : Acceptable maxBytes line
          · refine iff_of_false ?_ fun h => hfits (h.2 hacc).1
            intro h
            cases h
            contradiction
          · exact iff_of_true (.reject hacc) ⟨hwrap, fun h => absurd h hacc⟩

end Reads

section RoundTrip

variable {ν : Type*} (codec : LineCodec ν) (value : ν)

/-- A value comes back from the line it was written on, and the rest of the stream is left. -/
def RoundTrips (maxBytes : UInt64) (rest : List UInt8) : Prop :=
  ∃ buf, readLimitedLineU64 maxBytes ⟨writeJsonLine codec value ++ rest, false⟩ =
    (.line buf, ⟨rest, false⟩) ∧ codec.parse buf = .ok value

variable {codec value}

theorem rawLines_writeJsonLine (codec : LineCodec ν) (value : ν) (rest : List UInt8) :
    rawLines NEWLINE (writeJsonLine codec value ++ rest) =
      ⟨codec.toWriter value, true⟩ :: rawLines NEWLINE rest := by
  rw [writeJsonLine, List.append_assoc, List.singleton_append,
    rawLines_ended (newline_not_mem (codec.plain value))]

/-- What is written has no carriage return at its end either. -/
theorem lineContent_toWriter : lineContent ⟨codec.toWriter value, true⟩ = codec.toWriter value := by
  rw [← stripNewline_ended, stripNewline_line (codec.plain value)]

theorem roundTrips_iff (parses : codec.parse (codec.toWriter value) = .ok value) (maxBytes : UInt64)
    (rest : List UInt8) :
    RoundTrips codec value maxBytes rest ↔
      maxBytes + 1 ≠ 0 ∧ (codec.toWriter value).length < maxBytes.toNat := by
  unfold RoundTrips
  by_cases hwrap : maxBytes + 1 = 0
  · rw [readLimitedLineU64_wraps hwrap]
    refine iff_of_false ?_ fun h => h.1 hwrap
    rintro ⟨buf, hread, -⟩
    cases hread
  · rw [readLimitedLineU64_eq hwrap]
    obtain ⟨hlong, hshort, -⟩ :=
      readLimitedLineInto_first (rawLines_writeJsonLine codec value rest)
        maxBytes.toNat
    have hlen : (RawLine.toList NEWLINE ⟨codec.toWriter value, true⟩).length =
        (codec.toWriter value).length + 1 := by simp [RawLine.toList]
    have hdrop : (writeJsonLine codec value ++ rest).drop ((codec.toWriter value).length + 1) =
        rest := by simp [writeJsonLine]
    rw [hlen] at hlong hshort
    by_cases hfits : (codec.toWriter value).length < maxBytes.toNat
    · rw [hshort hfits, lineContent_toWriter, hdrop, utf8Read, if_pos (codec.utf8 value)]
      exact iff_of_true ⟨_, rfl, parses⟩ ⟨hwrap, hfits⟩
    · refine iff_of_false ?_ fun h => hfits h.2
      rintro ⟨buf, hread, -⟩
      have herr := hlong (by omega)
      rw [hread] at herr
      cases herr

end RoundTrip

/-- The cap counts the terminator: a line whose content is within the cap is lost where its
terminator is not, and so is a value written on such a line. -/
theorem readLimitedLine_framing_iff {ν : Type*} (codec : LineCodec ν) (value : ν)
    (parses : codec.parse (codec.toWriter value) = .ok value) (maxBytes : UInt64)
    (bytes rest : List UInt8) :
    (ReadsFirst maxBytes bytes ↔ FirstFits maxBytes (rawLines NEWLINE bytes)) ∧
    (Framed maxBytes (rawLines NEWLINE bytes)
        (limitedLines maxBytes bytes.length ⟨bytes, false⟩) ↔
      TerminatorsFit maxBytes (rawLines NEWLINE bytes)) ∧
    (((codec.toWriter value).length ≤ maxBytes.toNat → RoundTrips codec value maxBytes rest) ↔
      ((codec.toWriter value).length ≤ maxBytes.toNat →
        maxBytes + 1 ≠ 0 ∧ (codec.toWriter value).length < maxBytes.toNat)) := by
  refine ⟨readsFirst_iff bytes, framed_iff _ _ bytes rfl le_rfl, ?_⟩
  rw [roundTrips_iff parses]

/-- Writes and reads `true` and `false`. -/
def boolCodec : LineCodec Bool where
  toWriter := fun b => if b then [116, 114, 117, 101] else [102, 97, 108, 115, 101]
  parse := fun buf =>
    if buf = [116, 114, 117, 101] then .ok true
    else if buf = [102, 97, 108, 115, 101] then .ok false
    else .error "expected value"
  plain := by
    intro b
    rw [← List.all_eq_true.trans (forall₂_congr fun _ _ => decide_eq_true_iff)]
    cases b <;> decide
  utf8 := by
    intro b
    cases b <;> decide +kernel

theorem readLimitedLine_framing_iff_true : RoundTrips boolCodec true 5 [] :=
  (readLimitedLine_framing_iff boolCodec true rfl 5 [] []).2.2.mpr (fun _ => by decide) (by decide)

/-- Four bytes are rejected under a cap of four, and a value of four bytes is lost. -/
theorem exactLine_rejected :
    ¬ ReadsFirst 4 (writeJsonLine boolCodec true) ∧ ¬ RoundTrips boolCodec true 4 [] := by
  constructor
  · intro h
    obtain ⟨-, hfits⟩ := (readsFirst_iff _).mp h
    have hacc : Acceptable 4 ⟨boolCodec.toWriter true, true⟩ :=
      ⟨by decide, by rw [lineContent_toWriter]; exact boolCodec.utf8 true⟩
    exact absurd (hfits hacc) (by unfold FitsEnded; decide)
  · intro h
    obtain ⟨-, hlt⟩ := (roundTrips_iff rfl 4 []).mp h
    exact absurd hlt (by decide)

end GpuiAgent
