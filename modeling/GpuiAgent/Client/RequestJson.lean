import GpuiAgent.Client.Wire
import GpuiAgent.Framework.RecordCodec

namespace GpuiAgent

open Framework

namespace Json

def stringValue : ValueCodec Json String where
  enc := string
  dec := asStr
  Fits _ := True
  Lossless _ := True
  dec_enc _ _ := rfl
  fits_of_dec _ := trivial
  lossless_of_back _ := trivial

def boolValue : ValueCodec Json Bool where
  enc := bool
  dec := asBool
  Fits _ := True
  Lossless _ := True
  dec_enc _ _ := rfl
  fits_of_dec _ := trivial
  lossless_of_back _ := trivial

/-- A `serde_json::Value` as it is. -/
def anyValue : ValueCodec Json Json where
  enc v := v
  dec := some
  Fits _ := True
  Lossless _ := True
  dec_enc _ _ := rfl
  fits_of_dec _ := trivial
  lossless_of_back _ := trivial

theorem asU64_nat {n : Nat} (h : n < 2 ^ 64) : (nat n).asU64 = some n := by
  have hn : (0 : Int) ≤ n ∧ (n : Int) < 2 ^ 64 := by omega
  rw [nat, asU64, if_pos hn]
  rfl

theorem lt_of_asU64 {v : Json} {n : Nat} (h : v.asU64 = some n) : n < 2 ^ 64 := by
  unfold asU64 at h
  split at h
  · split_ifs at h with hn
    obtain rfl := Option.some.inj h
    omega
  · cases h

/-- `u64`. -/
def u64Value : ValueCodec Json Nat where
  enc := nat
  dec := asU64
  Fits n := n < 2 ^ 64
  Lossless _ := True
  dec_enc h _ := asU64_nat h
  fits_of_dec := lt_of_asU64
  lossless_of_back _ := trivial

/-- `u32`. -/
def u32Value : ValueCodec Json Nat where
  enc := nat
  dec v := v.asU64.filter (· < 2 ^ 32)
  Fits n := n < 2 ^ 32
  Lossless _ := True
  dec_enc {n} h _ := by
    rw [asU64_nat (by omega), Option.filter_some, if_pos (decide_eq_true h)]
  fits_of_dec h := by simpa using (Option.filter_eq_some_iff.mp h).2
  lossless_of_back _ := trivial

/-- A `u64` that is a fingerprint. -/
def fingerprintValue : ValueCodec Json UInt64 where
  enc fp := nat fp.toNat
  dec v := v.asU64.map UInt64.ofNat
  Fits _ := True
  Lossless _ := True
  dec_enc {fp} _ _ := by
    rw [asU64_nat fp.toNat_lt]
    simp
  fits_of_dec _ := trivial
  lossless_of_back _ := trivial

section Named

-- the place among these names of the one that `serde` takes a value for that is not a string
variable (variantOf : List String → Json → Option Nat)

/-- A value of an enumeration by its name. -/
def named {ι : Type} (name : ι → String) (all : List ι) (aliases : List (String × ι))
    (complete : ∀ i, i ∈ all) (distinct : ∀ i ∈ all, all.find? (fun j => name j = name i) = some i) :
    ValueCodec Json ι where
  enc i := string (name i)
  dec
    | string s => (all.find? fun i => name i = s).or (aliases.lookup s)
    | v => (variantOf (all.map name) v).bind fun n => all[n]?
  Fits _ := True
  Lossless _ := True
  dec_enc {i} _ _ := by
    show (all.find? fun j => name j = name i).or _ = some i
    rw [distinct i (complete i)]
    rfl
  fits_of_dec _ := trivial
  lossless_of_back _ := trivial

end Named

end Json

/-! The variants as `serde` names them. -/

def DeliveryMode.name : DeliveryMode → String
  | semantic => "semantic"
  | virtual => "virtual"

def KeybindingScope.name : KeybindingScope → String
  | focused => "focused"
  | global => "global"

def ScreenshotMode.name : ScreenshotMode → String
  | viewport => "viewport"
  | scrolled => "scrolled"

def SnapshotFormat.name : SnapshotFormat → String
  | json => "json"
  | compact => "compact"

def DeliveryMode.isSemantic : DeliveryMode → Bool
  | semantic => true
  | virtual => false

def ScreenshotMode.isViewport : ScreenshotMode → Bool
  | viewport => true
  | scrolled => false

def isFalse (value : Bool) : Bool := !value

/-- The variants of `Op`. -/
inductive OpKind where
  | hello | snapshot | revision | events | click | type | setValue | key | keybinding | keybindings
  | assert | invoke | wait | waitUntil | shutdown | screenshot
  deriving DecidableEq

namespace OpKind

def specKeys : List String :=
  ["target", "name", "value", "role", "checked", "exists", "visible", "in_viewport"]

def all : List OpKind :=
  [hello, snapshot, revision, events, click, type, setValue, key, keybinding, keybindings, assert,
    invoke, wait, waitUntil, shutdown, screenshot]

def name : OpKind → String
  | hello => "hello"
  | snapshot => "snapshot"
  | revision => "revision"
  | events => "events"
  | click => "click"
  | type => "type"
  | setValue => "set_value"
  | key => "key"
  | keybinding => "keybinding"
  | keybindings => "keybindings"
  | assert => "assert"
  | invoke => "invoke"
  | wait => "wait"
  | waitUntil => "wait_until"
  | shutdown => "shutdown"
  | screenshot => "screenshot"

/-- The fields of the variant, by their names in the JSON. -/
def keys : OpKind → List String
  | hello | revision | keybindings | shutdown => []
  | snapshot => ["since", "format", "fingerprints"]
  | events => ["since", "limit"]
  | click => ["target", "delivery", "expect_fingerprint"]
  | type => ["target", "text", "delivery", "expect_fingerprint"]
  | setValue => ["target", "value", "expect_fingerprint"]
  | key => ["target", "key", "delivery", "expect_fingerprint"]
  | keybinding => ["binding", "chord", "scope", "confirm", "activate"]
  | assert => specKeys
  | invoke => ["name", "args"]
  | wait => ["timeout_ms"]
  | waitUntil => "timeout_ms" :: specKeys
  | screenshot => ["path", "mode", "target", "max_height_px"]

theorem mem_all (kind : OpKind) : kind ∈ all := by
  cases kind <;> decide

end OpKind

def Op.kind : Op → OpKind
  | hello => .hello
  | snapshot .. => .snapshot
  | revision => .revision
  | events .. => .events
  | click .. => .click
  | type .. => .type
  | setValue .. => .setValue
  | key .. => .key
  | keybinding .. => .keybinding
  | keybindings => .keybindings
  | assert _ => .assert
  | invoke .. => .invoke
  | wait _ => .wait
  | waitUntil .. => .waitUntil
  | shutdown => .shutdown
  | screenshot .. => .screenshot

/-- The numbers of the op are in the range of their types. -/
def Op.Fits : Op → Prop
  | snapshot since _ _ => ∀ n ∈ since, n < 2 ^ 64
  | events since limit => (∀ n ∈ since, n < 2 ^ 64) ∧ ∀ n ∈ limit, n < 2 ^ 32
  | wait timeoutMs => ∀ n ∈ timeoutMs, n < 2 ^ 64
  | waitUntil timeoutMs _ => timeoutMs < 2 ^ 64
  | screenshot _ _ _ maxHeightPx => ∀ n ∈ maxHeightPx, n < 2 ^ 32
  | _ => True

/-- The numbers of the request are in the range of their types. -/
def Request.Fits (req : Request) : Prop := req.v < 2 ^ 32 ∧ req.op.Fits

/-- What the reading of a request depends on. -/
def Request.keys (req : Request) : List String :=
  ["v", "id", "token", "auth", "op"] ++ req.op.kind.keys

namespace RequestJson

open Json RecordCodec

section Fields

-- the place among these names of the one that `serde` takes a value for that is not a string
variable (variantOf : List String → Json → Option Nat)

def deliveryValue : ValueCodec Json DeliveryMode :=
  named variantOf DeliveryMode.name [.semantic, .virtual] []
    (fun i => by cases i <;> decide) (by decide)

def scopeValue : ValueCodec Json KeybindingScope :=
  named variantOf KeybindingScope.name [.focused, .global] []
    (fun i => by cases i <;> decide) (by decide)

def screenshotModeValue : ValueCodec Json ScreenshotMode :=
  named variantOf ScreenshotMode.name [.viewport, .scrolled] []
    (fun i => by cases i <;> decide) (by decide)

def snapshotFormatValue : ValueCodec Json SnapshotFormat :=
  named variantOf SnapshotFormat.name [.json, .compact] []
    (fun i => by cases i <;> decide) (by decide)

/-- The `op` entry, with the alias of the list of keybindings. -/
def kindValue : ValueCodec Json OpKind :=
  named variantOf OpKind.name OpKind.all [("keybinding.list", .keybindings)]
    OpKind.mem_all (by decide)

end Fields

def req {α : Type} (key : String) (value : ValueCodec Json α) : RecordCodec String Json α :=
  field key (.required value)

/-- A field `#[serde(default, skip_serializing_if = "Option::is_none")]`. -/
def opt {α : Type} (key : String) (value : ValueCodec Json α)
    (h : ∀ a, value.enc a ≠ null := by nofun) : RecordCodec String Json (Option α) :=
  field key (.optional value null (fun _ a _ _ => h a) true)

def flag (key : String) : RecordCodec String Json Bool :=
  field key (.skipped boolValue isFalse false (by decide) trivial)

def expectFingerprint : RecordCodec String Json (Option UInt64) :=
  opt "expect_fingerprint" fingerprintValue

@[simp] theorem req_keys {α : Type} (key : String) (value : ValueCodec Json α) :
    (req key value).keys = [key] := (rfl)

@[simp] theorem opt_keys {α : Type} (key : String) (value : ValueCodec Json α)
    (h : ∀ a, value.enc a ≠ null) : (opt key value h).keys = [key] := (rfl)

@[simp] theorem flag_keys (key : String) : (flag key).keys = [key] := (rfl)

@[simp] theorem expectFingerprint_keys : expectFingerprint.keys = ["expect_fingerprint"] := (rfl)

theorem opt_enc {α : Type} (key : String) (value : ValueCodec Json α) (h : ∀ a, value.enc a ≠ null)
    (o : Option α) : (opt key value h).enc o = (o.map fun a => (key, value.enc a)).toList := by
  cases o <;> rfl

@[simp] theorem req_fits {α : Type} (key : String) (value : ValueCodec Json α) (a : α) :
    (req key value).Fits a ↔ value.Fits a := Iff.rfl

@[simp] theorem opt_fits {α : Type} (key : String) (value : ValueCodec Json α)
    (h : ∀ a, value.enc a ≠ null) (o : Option α) :
    (opt key value h).Fits o ↔ ∀ a ∈ o, value.Fits a :=
  forall_congr' fun a => ⟨fun ho hmem => (ho hmem).1, fun ho hmem => ⟨ho hmem, h a⟩⟩

@[simp] theorem req_lossless {α : Type} (key : String) (value : ValueCodec Json α) (a : α) :
    (req key value).Lossless a ↔ value.Lossless a := Iff.rfl

@[simp] theorem opt_lossless {α : Type} (key : String) (value : ValueCodec Json α)
    (h : ∀ a, value.enc a ≠ null) (o : Option α) :
    (opt key value h).Lossless o ↔ ∀ a ∈ o, value.Lossless a := Iff.rfl

/-- The fields of an `AssertSpec`. -/
def specFields : RecordCodec String Json AssertSpec :=
  ((req "target" stringValue).pair ((opt "name" stringValue).pair ((opt "value" stringValue).pair
    ((opt "role" stringValue).pair ((opt "checked" boolValue).pair
      ((opt "exists" boolValue).pair ((opt "visible" boolValue).pair
        (opt "in_viewport" boolValue)))))))).inject
    (fun ⟨target, name, value, role, checked, exists', visible, inViewport⟩ =>
      ⟨target, name, value, role, checked, exists', visible, inViewport⟩)
    (fun spec => some ⟨spec.target, spec.name, spec.value, spec.role, spec.checked, spec.exists',
      spec.visible, spec.inViewport⟩)
    fun _ => rfl

@[simp] theorem specFields_keys : specFields.keys =
    ["target", "name", "value", "role", "checked", "exists", "visible", "in_viewport"] := (rfl)

section Ops

variable (variantOf : List String → Json → Option Nat)

def delivery : RecordCodec String Json DeliveryMode :=
  field "delivery" (.skipped (deliveryValue variantOf) DeliveryMode.isSemantic .semantic
    (fun mode => by cases mode <;> decide) trivial)

@[simp] theorem delivery_keys : (delivery variantOf).keys = ["delivery"] := (rfl)

/-- The fields of an op, by its variant. -/
def opFields : OpKind → RecordCodec String Json Op
  | .hello => empty.inject (fun _ => .hello) (fun | .hello => some () | _ => none) fun _ => rfl
  | .snapshot =>
    ((opt "since" u64Value).pair ((opt "format" (snapshotFormatValue variantOf)).pair
      (opt "fingerprints" boolValue))).inject
      (fun ⟨since, format, fingerprints⟩ => .snapshot since format fingerprints)
      (fun | .snapshot since format fingerprints => some (since, format, fingerprints) | _ => none)
      fun _ => rfl
  | .revision =>
    empty.inject (fun _ => .revision) (fun | .revision => some () | _ => none) fun _ => rfl
  | .events =>
    ((opt "since" u64Value).pair (opt "limit" u32Value)).inject
      (fun ⟨since, limit⟩ => .events since limit)
      (fun | .events since limit => some (since, limit) | _ => none) fun _ => rfl
  | .click =>
    ((req "target" stringValue).pair ((delivery variantOf).pair expectFingerprint)).inject
      (fun ⟨target, delivery, fp⟩ => .click target delivery fp)
      (fun | .click target delivery fp => some (target, delivery, fp) | _ => none) fun _ => rfl
  | .type =>
    ((req "target" stringValue).pair ((req "text" stringValue).pair
      ((delivery variantOf).pair expectFingerprint))).inject
      (fun ⟨target, text, delivery, fp⟩ => .type target text delivery fp)
      (fun | .type target text delivery fp => some (target, text, delivery, fp) | _ => none)
      fun _ => rfl
  | .setValue =>
    ((req "target" stringValue).pair ((req "value" stringValue).pair expectFingerprint)).inject
      (fun ⟨target, value, fp⟩ => .setValue target value fp)
      (fun | .setValue target value fp => some (target, value, fp) | _ => none) fun _ => rfl
  | .key =>
    ((req "target" stringValue).pair ((req "key" stringValue).pair
      ((delivery variantOf).pair expectFingerprint))).inject
      (fun ⟨target, key, delivery, fp⟩ => .key target key delivery fp)
      (fun | .key target key delivery fp => some (target, key, delivery, fp) | _ => none)
      fun _ => rfl
  | .keybinding =>
    ((req "binding" stringValue).pair ((opt "chord" stringValue).pair
      ((req "scope" (scopeValue variantOf)).pair ((flag "confirm").pair (flag "activate"))))).inject
      (fun ⟨binding, chord, scope, confirm, activate⟩ =>
        .keybinding binding chord scope confirm activate)
      (fun
        | .keybinding binding chord scope confirm activate =>
          some (binding, chord, scope, confirm, activate)
        | _ => none) fun _ => rfl
  | .keybindings =>
    empty.inject (fun _ => .keybindings) (fun | .keybindings => some () | _ => none) fun _ => rfl
  | .assert =>
    specFields.inject (fun spec => .assert spec) (fun | .assert spec => some spec | _ => none)
      fun _ => rfl
  | .invoke =>
    ((req "name" stringValue).pair (field "args" (.defaulted anyValue null trivial))).inject
      (fun ⟨name, args⟩ => .invoke name args)
      (fun | .invoke name args => some (name, args) | _ => none) fun _ => rfl
  | .wait =>
    (field "timeout_ms" (.nullable u64Value null (by nofun) true)).inject
      (fun timeoutMs => .wait timeoutMs) (fun | .wait timeoutMs => some timeoutMs | _ => none)
      fun _ => rfl
  | .waitUntil =>
    ((req "timeout_ms" u64Value).pair specFields).inject
      (fun ⟨timeoutMs, spec⟩ => .waitUntil timeoutMs spec)
      (fun | .waitUntil timeoutMs spec => some (timeoutMs, spec) | _ => none) fun _ => rfl
  | .shutdown =>
    empty.inject (fun _ => .shutdown) (fun | .shutdown => some () | _ => none) fun _ => rfl
  | .screenshot =>
    ((opt "path" stringValue).pair ((field "mode" (.skipped (screenshotModeValue variantOf)
      ScreenshotMode.isViewport .viewport (fun mode => by cases mode <;> decide) trivial)).pair
        ((opt "target" stringValue).pair (opt "max_height_px" u32Value)))).inject
      (fun ⟨path, mode, target, maxHeightPx⟩ => .screenshot path mode target maxHeightPx)
      (fun
        | .screenshot path mode target maxHeightPx => some (path, mode, target, maxHeightPx)
        | _ => none) fun _ => rfl

theorem kind_of_dec {kind : OpKind} {entries : List (String × Json)} {op : Op}
    (h : (opFields variantOf kind).dec entries = some op) : op.kind = kind := by
  cases kind <;>
  · simp only [opFields] at h
    obtain ⟨parts, -, rfl⟩ := made_of_dec h
    rfl

theorem op_notMem_keys (kind : OpKind) : "op" ∉ (opFields variantOf kind).keys := by
  cases kind <;> simp [opFields]

/-- `Op`, with the variant in the entry `op`. -/
def opCodec : RecordCodec String Json Op :=
  .tagged "op" (kindValue variantOf) Op.kind (opFields variantOf) OpKind.all OpKind.mem_all
    (op_notMem_keys variantOf) (fun _ => trivial) (fun _ => trivial) (kind_of_dec variantOf)

/-- The fields of a request next to its op. -/
def headFields : RecordCodec String Json (Nat × String × Option String × Option String) :=
  (req "v" u32Value).pair ((req "id" stringValue).pair ((opt "token" stringValue).pair
    (opt "auth" stringValue)))

@[simp] theorem headFields_keys : headFields.keys = ["v", "id", "token", "auth"] := (rfl)

theorem opCodec_keys : (opCodec variantOf).keys =
    "op" :: OpKind.all.flatMap fun kind => (opFields variantOf kind).keys := rfl

/-- No op has a field that a request has next to it. -/
theorem headFields_disjoint : ∀ k ∈ headFields.keys, k ∉ (opCodec variantOf).keys := by
  rw [opCodec_keys]
  simp [OpKind.all, opFields]

/-- A `Request`: its own fields and those of the op side by side. -/
def requestCodec : RecordCodec String Json Request :=
  (headFields.pair (opCodec variantOf) (headFields_disjoint variantOf)).inject
    (fun ⟨⟨v, id, token, auth⟩, op⟩ => ⟨v, id, token, auth, op⟩)
    (fun req => some ((req.v, req.id, req.token, req.auth), req.op)) fun _ => rfl

theorem specFields_fits (spec : AssertSpec) : specFields.Fits spec := by
  refine ⟨⟨spec.target, spec.name, spec.value, spec.role, spec.checked, spec.exists', spec.visible,
    spec.inViewport⟩, ?_, rfl⟩
  simp [stringValue, boolValue]

theorem flag_fits (key : String) (value : Bool) : (flag key).Fits value := trivial

theorem delivery_fits (mode : DeliveryMode) : (delivery variantOf).Fits mode := trivial

theorem expectFingerprint_fits (fp : Option UInt64) : expectFingerprint.Fits fp := by
  simp [expectFingerprint, fingerprintValue]

theorem opCodec_fits (op : Op) : (opCodec variantOf).Fits op ↔ op.Fits := by
  show (opFields variantOf op.kind).Fits op ↔ op.Fits
  cases op <;>
    simp [Op.kind, opFields, inject_fits, Op.Fits, stringValue, u64Value, u32Value, boolValue,
      snapshotFormatValue, scopeValue, screenshotModeValue, named, FieldCodec.skipped,
      FieldCodec.defaulted, FieldCodec.nullable, FieldCodec.OptionalFits, anyValue, nat, flag_fits,
      delivery_fits, expectFingerprint_fits, specFields_fits]

/-- No number of an op is lost in its JSON. -/
theorem opCodec_lossless (op : Op) : (opCodec variantOf).Lossless op := by
  show (opFields variantOf op.kind).Lossless op
  cases op <;>
    simp [Op.kind, opFields, specFields, flag, delivery, expectFingerprint, deliveryValue,
      stringValue, u64Value, u32Value, boolValue, fingerprintValue, snapshotFormatValue, scopeValue,
      screenshotModeValue, named, anyValue, FieldCodec.skipped, FieldCodec.defaulted,
      FieldCodec.nullable]

theorem requestCodec_lossless (req : Request) : (requestCodec variantOf).Lossless req := by
  obtain ⟨v, id, token, auth, op⟩ := req
  simp [requestCodec, headFields, u32Value, stringValue, opCodec_lossless]

theorem requestCodec_fits (req : Request) : (requestCodec variantOf).Fits req ↔ req.Fits := by
  obtain ⟨v, id, token, auth, op⟩ := req
  simp [requestCodec, inject_fits, headFields, u32Value, stringValue, opCodec_fits, Request.Fits]

theorem opCodec_uses (op : Op) : (opCodec variantOf).uses op = "op" :: op.kind.keys := by
  show "op" :: (opFields variantOf op.kind).uses op = _
  cases op <;> rfl

theorem requestCodec_uses (req : Request) : (requestCodec variantOf).uses req = req.keys := by
  show ["v", "id", "token", "auth"] ++ (opCodec variantOf).uses req.op = req.keys
  rw [opCodec_uses]
  rfl

end Ops

/-- The entries that an op adds to its request. -/
def encodeOp (op : Op) : List (String × Json) := (opCodec fun _ _ => none).enc op

theorem opCodec_enc (variantOf : List String → Json → Option Nat) (op : Op) :
    (opCodec variantOf).enc op = encodeOp op := by
  cases op <;> rfl

end RequestJson

open RequestJson

/-- `serde_json::to_value` of a request, in the order of its text. -/
def encodeRequest (req : Request) : List (String × Json) :=
  [("v", .nat req.v), ("id", .string req.id)] ++
    (req.token.map fun token => ("token", .string token)).toList ++
    (req.auth.map fun auth => ("auth", .string auth)).toList ++ encodeOp req.op

/-- The request that the client writes: it borrows what it has, and has no token. -/
def encodeWireRequest (req : WireRequest) : List (String × Json) :=
  [("v", .nat req.v), ("id", .string req.id)] ++
    (req.auth.map fun auth => ("auth", .string auth)).toList ++ encodeOp req.op

/-- The request that the entries of an object in their order stand for. -/
def decodeRequest (variantOf : List String → Json → Option Nat) (entries : List (String × Json)) :
    Option Request := (requestCodec variantOf).dec entries

theorem requestCodec_enc (variantOf : List String → Json → Option Nat) (req : Request) :
    (requestCodec variantOf).enc req = encodeRequest req := by
  obtain ⟨v, id, token, auth, op⟩ := req
  show headFields.enc (v, id, token, auth) ++ (opCodec variantOf).enc op = _
  rw [opCodec_enc]
  cases token <;> cases auth <;> rfl

/-- The request that a wire request stands for. -/
def WireRequest.owned (req : WireRequest) : Request := ⟨req.v, req.id, none, req.auth, req.op⟩

/-- A request is read back from what is written exactly if its numbers are in range, what the client
writes being one way to write it. What is read at all has each of its keys once, and is read the
same from the entries in any order, among any others. -/
theorem request_json (variantOf : List String → Json → Option Nat) :
    (∀ req : Request, decodeRequest variantOf (encodeRequest req) = some req ↔ req.Fits) ∧
    (∀ req : WireRequest, encodeWireRequest req = encodeRequest req.owned) ∧
    ∀ entries req, decodeRequest variantOf entries = some req →
      req.Fits ∧ (∀ k ∈ req.keys, (entries.filter fun e => e.1 = k).length ≤ 1) ∧
      ∀ others all, (∀ e ∈ others, e.1 ∉ req.keys) → all.Perm (entries ++ others) →
        decodeRequest variantOf all = some req := by
  refine ⟨fun req => ?_, fun req => ?_, fun entries req h => ?_⟩
  · rw [← requestCodec_fits variantOf, ← requestCodec_enc variantOf]
    exact (requestCodec variantOf).dec_enc_iff.trans
      (and_iff_left (requestCodec_lossless variantOf req))
  · simp [encodeWireRequest, encodeRequest, WireRequest.owned]
  · have huses := requestCodec_uses variantOf req
    refine ⟨(requestCodec_fits variantOf req).mp ((requestCodec variantOf).fits_of_dec h),
      fun k hk => ?_, fun others all hothers hperm => ?_⟩
    · exact length_filter_le_of_valueAt ((requestCodec variantOf).once h k (huses ▸ hk))
    · exact (requestCodec variantOf).dec_among h (fun e he => huses ▸ hothers e he) hperm

/-- A click in another order, with a field of another op and one of no op at all. -/
theorem request_json_click : decodeRequest (fun _ _ => none)
    [("target", .string "todo-add"), ("trace", .null), ("op", .string "click"),
      ("text", .string "milk"), ("id", .string "1"), ("v", .nat 2)] =
    some (.new "1" (.click "todo-add" .semantic none)) :=
  ((request_json fun _ _ => none).2.2
    [("v", .nat 2), ("id", .string "1"), ("op", .string "click"), ("target", .string "todo-add")]
    (.new "1" (.click "todo-add" .semantic none)) (by decide +kernel)).2.2
    [("trace", .null), ("text", .string "milk")] _ (by decide) (by decide +kernel)

end GpuiAgent
