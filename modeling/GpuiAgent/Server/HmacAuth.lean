import GpuiAgent.Framework.Escape
import GpuiAgent.Framework.Utf8
import GpuiAgent.Server.SessionAuth

namespace GpuiAgent

open Framework

/-- The bytes of `0123456789abcdef`. -/
def HEX : List UInt8 :=
  [0x30, 0x31, 0x32, 0x33, 0x34, 0x35, 0x36, 0x37, 0x38, 0x39, 0x61, 0x62, 0x63, 0x64, 0x65, 0x66]

/-- The digit at a place of `HEX`; a half byte is always one of them. -/
def hexDigit (n : UInt8) : Char := Char.ofUInt8 (HEX.getD n.toNat 0x30)

def hexEncode (bytes : List UInt8) : String :=
  .ofList (bytes.flatMap fun b : UInt8 => [hexDigit (b >>> 4), hexDigit (b &&& 0xf)])

def hexNibble (b : UInt8) : Except String UInt8 :=
  if 0x30 ≤ b ∧ b ≤ 0x39 then .ok (b - 0x30)
  else if 0x61 ≤ b ∧ b ≤ 0x66 then .ok (b - 0x61 + 10)
  else if 0x41 ≤ b ∧ b ≤ 0x46 then .ok (b - 0x41 + 10)
  else .error "invalid hex"

/-- The loop of `hexDecode`, two bytes in a round; a single byte never remains. -/
def hexPairs : List UInt8 → Except String (List UInt8)
  | hi :: lo :: rest => do
    let hi ← hexNibble hi
    let lo ← hexNibble lo
    let out ← hexPairs rest
    return (hi <<< 4 ||| lo) :: out
  | _ => return []

def hexDecode (s : String) : Except String (List UInt8) :=
  let s := trim s
  if s.utf8ByteSize % 2 ≠ 0 then .error "hex length must be even"
  else hexPairs s.toUTF8.toList

/-- What the host writes in front of everything else when it has a token. -/
structure Challenge where
  v : Nat
  op : String
  nonce : String
  deriving DecidableEq

def challengeForNonce (nonce : List UInt8) : Challenge where
  v := PROTOCOL_VERSION
  op := "challenge"
  nonce := hexEncode nonce

section Challenge

-- `serde_json::from_slice` at a challenge
variable (fromSlice : List UInt8 → Except String Challenge)

def parseChallengeLine (line : List UInt8) : Except String (List UInt8) :=
  match fromSlice line with
  | .error err => .error s!"bad challenge: {err}"
  | .ok challenge =>
    if challenge.v ≠ PROTOCOL_VERSION then
      .error s!"unsupported challenge version {challenge.v} (want {PROTOCOL_VERSION})"
    else if challenge.op ≠ "challenge" then
      .error s!"expected op=challenge, got {challenge.op}"
    else match hexDecode challenge.nonce with
      | .error err => .error err
      | .ok bytes =>
        if bytes.length ≠ NONCE_LEN then .error "challenge nonce must be 32 bytes" else .ok bytes

end Challenge

section Mac

-- the MAC of the HMAC crate under a key, if it takes that key
variable (newFromSlice : List UInt8 → Option (List UInt8 → List UInt8))

def hmacHex (token : String) (nonce : List UInt8) : Except String String :=
  match newFromSlice token.toUTF8.toList with
  | none => .error "invalid HMAC key"
  | some mac => .ok (hexEncode (mac nonce))

def hmacVerify (token : String) (nonce : List UInt8) (authHex : String) : Bool :=
  match hexDecode authHex with
  | .error _ => false
  | .ok got => match newFromSlice token.toUTF8.toList with
    | none => false
    | some mac => got = mac nonce

end Mac

/-- What holds of the 256 bytes holds of all. -/
theorem byte_forall {P : UInt8 → Prop} (h : ∀ n < 256, P (UInt8.ofNat n)) : ∀ b, P b := by
  intro b
  have hb := h b.toNat b.toNat_lt
  rwa [UInt8.ofNat_toNat] at hb

theorem hexNibble_hexDigit : ∀ n : UInt8, n.toNat < 16 →
    (hexDigit n).toNat < 128 ∧ isWhitespace (hexDigit n) = false ∧
      hexNibble (hexDigit n).toNat.toUInt8 = .ok n := by
  refine byte_forall ?_
  decide +kernel

/-- A digit that is read is written again in lower case. -/
theorem hexNibble_ok {b n : UInt8} (h : hexNibble b = .ok n) :
    n.toNat < 16 ∧ (hexDigit n).toNat.toUInt8 = Utf8.asciiLower b := by
  have hall : ∀ b, (hexNibble b).toOption.all (fun n =>
      decide (n.toNat < 16 ∧ (hexDigit n).toNat.toUInt8 = Utf8.asciiLower b)) = true := by
    refine byte_forall ?_
    decide +kernel
  have hb := hall b
  rw [h] at hb
  exact decide_eq_true_eq.mp hb

theorem nibbles_join {hi lo : UInt8} (hhi : hi.toNat < 16) (hlo : lo.toNat < 16) :
    (hi <<< 4 ||| lo) >>> 4 = hi ∧ (hi <<< 4 ||| lo) &&& 0xf = lo := by
  have hall : ∀ hi < 16, ∀ lo < 16,
      (UInt8.ofNat hi <<< 4 ||| UInt8.ofNat lo) >>> 4 = UInt8.ofNat hi ∧
        (UInt8.ofNat hi <<< 4 ||| UInt8.ofNat lo) &&& 0xf = UInt8.ofNat lo := by decide +kernel
  have h := hall hi.toNat hhi lo.toNat hlo
  rwa [UInt8.ofNat_toNat, UInt8.ofNat_toNat] at h

theorem nibbles_split : ∀ b : UInt8, (b >>> 4).toNat < 16 ∧ (b &&& 0xf).toNat < 16 ∧
    (b >>> 4) <<< 4 ||| (b &&& 0xf) = b := by
  refine byte_forall ?_
  decide +kernel

/-- The encoded text in bytes, two digits for a byte. -/
theorem toUTF8_hexEncode (bytes : List UInt8) : (hexEncode bytes).toUTF8.toList =
    bytes.flatMap fun b : UInt8 =>
      [(hexDigit (b >>> 4)).toNat.toUInt8, (hexDigit (b &&& 0xf)).toNat.toUInt8] := by
  rw [Utf8.toUTF8_toList, hexEncode, String.toList_ofList, List.flatMap_assoc]
  refine List.flatMap_congr fun b _ => ?_
  obtain ⟨hhi, hlo, -⟩ := nibbles_split b
  rw [List.flatMap_cons, List.flatMap_singleton,
    Utf8.utf8EncodeChar_ascii (hexNibble_hexDigit _ hhi).1,
    Utf8.utf8EncodeChar_ascii (hexNibble_hexDigit _ hlo).1]
  rfl

theorem hexPairs_encoded (bytes : List UInt8) :
    hexPairs (hexEncode bytes).toUTF8.toList = .ok bytes := by
  rw [toUTF8_hexEncode]
  induction bytes with
  | nil => rfl
  | cons b bytes ih =>
    obtain ⟨hhi, hlo, hb⟩ := nibbles_split b
    simp only [List.flatMap_cons, List.cons_append, List.nil_append, hexPairs,
      (hexNibble_hexDigit _ hhi).2.2, (hexNibble_hexDigit _ hlo).2.2, ih, hb, bind, Except.bind, pure,
      Except.pure]

/-- What the loop reads from an even number of bytes, encoded again. -/
theorem toUTF8_hexEncode_hexPairs {text bytes : List UInt8} (heven : text.length % 2 = 0)
    (h : hexPairs text = .ok bytes) :
    (hexEncode bytes).toUTF8.toList = text.map Utf8.asciiLower := by
  rw [toUTF8_hexEncode]
  induction text using hexPairs.induct generalizing bytes with
  | case1 hi lo rest ih =>
    rw [hexPairs] at h
    cases hhi : hexNibble hi with
    | error e => simp [hhi, bind, Except.bind] at h
    | ok high =>
      cases hlo : hexNibble lo with
      | error e => simp [hhi, hlo, bind, Except.bind] at h
      | ok low =>
        cases hrest : hexPairs rest with
        | error e => simp [hhi, hlo, hrest, bind, Except.bind] at h
        | ok out =>
          simp only [hhi, hlo, hrest, bind, Except.bind, pure, Except.pure,
            Except.ok.injEq] at h
          obtain ⟨hhigh, hhi⟩ := hexNibble_ok hhi
          obtain ⟨hlow, hlo⟩ := hexNibble_ok hlo
          obtain ⟨hjhi, hjlo⟩ := nibbles_join hhigh hlow
          rw [List.length_cons, List.length_cons] at heven
          rw [← h, List.flatMap_cons, hjhi, hjlo, hhi, hlo, ih (by omega) hrest]
          rfl
  | case2 text hshort =>
    match text, hshort with
    | [], _ =>
      cases h
      rfl
    | [b], _ => simp at heven
    | hi :: lo :: rest, hshort => exact absurd rfl (hshort hi lo rest)

theorem hexEncode_even (bytes : List UInt8) : (hexEncode bytes).utf8ByteSize % 2 = 0 := by
  rw [← Utf8.length_toUTF8, toUTF8_hexEncode]
  induction bytes with
  | nil => rfl
  | cons b bytes ih =>
    rw [List.flatMap_cons, List.length_append, Nat.add_mod, ih, List.length_cons,
      List.length_singleton]

theorem trim_hexEncode (bytes : List UInt8) : trim (hexEncode bytes) = hexEncode bytes := by
  refine trim_eq_self fun c hc => ?_
  rw [hexEncode, String.toList_ofList, List.mem_flatMap] at hc
  obtain ⟨b, -, hc⟩ := hc
  obtain ⟨hhi, hlo, -⟩ := nibbles_split b
  rcases List.mem_cons.mp hc with rfl | hc
  · exact (hexNibble_hexDigit _ hhi).2.1
  · rw [List.mem_singleton.mp hc]
    exact (hexNibble_hexDigit _ hlo).2.1

theorem hexDecode_hexEncode (bytes : List UInt8) : hexDecode (hexEncode bytes) = .ok bytes := by
  rw [hexDecode, trim_hexEncode, hexEncode_even, if_neg (by decide), hexPairs_encoded]

theorem hexEncode_of_hexDecode {s : String} {bytes : List UInt8} (h : hexDecode s = .ok bytes) :
    hexEncode bytes = toAsciiLowercase (trim s) := by
  rw [hexDecode] at h
  split_ifs at h with hodd
  rw [not_not, ← Utf8.length_toUTF8] at hodd
  refine Utf8.toUTF8_toList_injective ?_
  rw [Utf8.toUTF8_toAsciiLowercase]
  exact toUTF8_hexEncode_hexPairs hodd h

section Mac

variable {newFromSlice : List UInt8 → Option (List UInt8 → List UInt8)} {token : String}

theorem hmacVerify_iff {nonce : List UInt8} {auth : String} :
    hmacVerify newFromSlice token nonce auth = true ↔ ∃ mac,
      newFromSlice token.toUTF8.toList = some mac ∧ hexDecode auth = .ok (mac nonce) := by
  rw [hmacVerify]
  cases hexDecode auth with
  | error e => simp
  | ok got =>
    cases newFromSlice token.toUTF8.toList with
    | none => simp
    | some mac => simp

/-- The host accepts what a client with the same token sends. -/
theorem hmacVerify_hmacHex {nonce : List UInt8} {auth : String}
    (h : hmacHex newFromSlice token nonce = .ok auth) :
    hmacVerify newFromSlice token nonce auth = true := by
  rw [hmacHex] at h
  cases hmac : newFromSlice token.toUTF8.toList with
  | none =>
    rw [hmac] at h
    cases h
  | some mac =>
    rw [hmac] at h
    cases h
    exact hmacVerify_iff.mpr ⟨mac, hmac, hexDecode_hexEncode _⟩

/-- The gate of a session lets a request through when its auth decodes to the MAC of the nonce. -/
theorem authorised_iff_decoded {env : Env} (henv : env.hmacVerify = hmacVerify newFromSlice)
    {nonce : List UInt8} {req : Request} : Authorised env token (some nonce) req ↔
      req.v = PROTOCOL_VERSION ∧ (req.token.any fun t => !t.isEmpty) = false ∧
        nonce.length = NONCE_LEN ∧ ∃ auth mac, req.auth = some auth ∧
          newFromSlice token.toUTF8.toList = some mac ∧ hexDecode auth = .ok (mac nonce) := by
  constructor
  · rintro ⟨hv, htoken, n, hn, hlen, auth, hauth, hverify⟩
    obtain rfl := Option.some_inj.mp hn
    rw [henv] at hverify
    obtain ⟨mac, hmac, hdecode⟩ := hmacVerify_iff.mp hverify
    exact ⟨hv, htoken, hlen, auth, mac, hauth, hmac, hdecode⟩
  · rintro ⟨hv, htoken, hlen, auth, mac, hauth, hmac, hdecode⟩
    refine ⟨hv, htoken, nonce, rfl, hlen, auth, hauth, ?_⟩
    rw [henv]
    exact hmacVerify_iff.mpr ⟨mac, hmac, hdecode⟩

end Mac

theorem parseChallengeLine_challenge {fromSlice : List UInt8 → Except String Challenge}
    {line nonce : List UInt8} (hline : fromSlice line = .ok (challengeForNonce nonce))
    (hlen : nonce.length = NONCE_LEN) : parseChallengeLine fromSlice line = .ok nonce := by
  simp [parseChallengeLine, hline, challengeForNonce, hexDecode_hexEncode, hlen]

/-- A challenge as `serde_json` writes it, control characters apart. -/
def challengeText (c : Challenge) : String :=
  "\x7b\"v\":" ++ toString c.v ++ ",\"op\":\"" ++ .ofList (escape '"' c.op.toList) ++
    "\",\"nonce\":\"" ++ .ofList (escape '"' c.nonce.toList) ++ "\"\x7d"

/-- The fields of such a text. -/
def readChallenge (text : String) : Option Challenge := do
  let rest ← stripPrefix text "\x7b\"v\":"
  let (v, rest) ← splitOnce ',' rest
  let v ← parseU64 v
  let rest ← stripPrefix rest "\"op\":\""
  let (op, rest) ← readQuoted '"' rest.toList
  let rest ← stripPrefix (.ofList rest) ",\"nonce\":\""
  let (nonce, _) ← readQuoted '"' rest.toList
  return ⟨v, .ofList op, .ofList nonce⟩

theorem readChallenge_challengeText {c : Challenge} (h : c.v < 2 ^ 32) :
    readChallenge (challengeText c) = some c := by
  have hcomma : ',' ∉ (toString c.v).toList := by
    intro hmem
    have hdigit := Nat.isDigit_of_mem_toDigits (b := 10) (n := c.v) (c := ',') (by decide)
      (by decide) (by simpa using hmem)
    exact absurd hdigit (by decide)
  have hquoted : ∀ text rest : String, readQuoted '"'
      (String.ofList (escape '"' text.toList) ++ ("\"" ++ rest)).toList =
        some (text.toList, rest.toList) := by
    intro text rest
    rw [String.toList_append, String.toList_append, String.toList_ofList]
    exact readQuoted_escape (by decide) text.toList rest.toList
  have htext : challengeText c = "\x7b\"v\":" ++ (toString c.v ++ .singleton ',' ++
      ("\"op\":\"" ++ (.ofList (escape '"' c.op.toList) ++ ("\"" ++
        (",\"nonce\":\"" ++ (.ofList (escape '"' c.nonce.toList) ++ ("\"" ++ "\x7d"))))))) := by
    apply String.ext
    simp [challengeText]
  have hv : parseU64 (toString c.v) = some c.v := parseU64_toString (by omega)
  simp only [htext, readChallenge, stripPrefix_append, Option.bind_eq_bind, Option.bind_some,
    splitOnce_append hcomma, hv, hquoted, String.ofList_toList, Option.pure_def]

/-- The bytes of such a text, and back. -/
def challengeBytes (c : Challenge) : List UInt8 := (challengeText c).toUTF8.toList

def challengeOfBytes (line : List UInt8) : Except String Challenge :=
  match (String.fromUTF8? line.toByteArray).bind readChallenge with
  | some c => .ok c
  | none => .error "expected value"

theorem challengeOfBytes_challengeBytes {c : Challenge} (h : c.v < 2 ^ 32) :
    challengeOfBytes (challengeBytes c) = .ok c := by
  have hbytes : (challengeBytes c).toByteArray = (challengeText c).toByteArray := by
    apply ByteArray.ext
    rw [← Array.toList_inj, List.toList_data_toByteArray, challengeBytes, Utf8.toList_eq_data]
    rfl
  have hutf8 : String.fromUTF8? (challengeBytes c).toByteArray = some (challengeText c) := by
    rw [hbytes]
    exact dif_pos (challengeText c).isValidUTF8
  rw [challengeOfBytes, hutf8, Option.bind_some, readChallenge_challengeText h]

/-- Both codings are read back, and the auth that is accepted is the hex of the MAC. -/
theorem hmac_auth_round_trip (toVec : Challenge → List UInt8)
    (fromSlice : List UInt8 → Except String Challenge)
    (hcodec : ∀ c, c.v < 2 ^ 32 → fromSlice (toVec c) = .ok c) :
    (∀ bytes, hexDecode (hexEncode bytes) = .ok bytes) ∧
    (∀ s bytes, hexDecode s = .ok bytes → hexEncode bytes = toAsciiLowercase (trim s)) ∧
    (∀ nonce, nonce.length = NONCE_LEN →
      parseChallengeLine fromSlice (toVec (challengeForNonce nonce)) = .ok nonce) ∧
    ∀ newFromSlice token nonce auth, hmacVerify newFromSlice token nonce auth = true ↔
      ∃ mac, newFromSlice token.toUTF8.toList = some mac ∧ hexDecode auth = .ok (mac nonce) := by
  refine ⟨hexDecode_hexEncode, fun s bytes => hexEncode_of_hexDecode, fun nonce hlen => ?_,
    fun newFromSlice token nonce auth => hmacVerify_iff⟩
  exact parseChallengeLine_challenge (hcodec _ (by decide : PROTOCOL_VERSION < 2 ^ 32)) hlen

theorem hmac_auth_round_trip_text :
    challengeText (challengeForNonce (List.replicate 32 0xa7)) =
        "\x7b\"v\":2,\"op\":\"challenge\",\"nonce\":\"" ++
          String.join (List.replicate 32 "a7") ++ "\"\x7d" ∧
      parseChallengeLine challengeOfBytes
        (challengeBytes (challengeForNonce (List.replicate 32 0xa7))) =
          .ok (List.replicate 32 0xa7) := by
  refine ⟨by decide +kernel, ?_⟩
  exact (hmac_auth_round_trip challengeBytes challengeOfBytes
    fun c h => challengeOfBytes_challengeBytes h).2.2.1 _ (by decide)

end GpuiAgent
