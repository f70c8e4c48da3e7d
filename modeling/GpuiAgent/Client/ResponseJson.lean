import GpuiAgent.Client.RequestJson
import GpuiAgent.Server.HmacAuth

namespace GpuiAgent

open Framework Framework.RoseTree

namespace Json

variable {α : Type}

theorem mapM_map_enc_iff {ι ν : Type} {enc : ι → ν} {dec : ν → Option ι} {xs : List ι} :
    (xs.map enc).mapM dec = some xs ↔ ∀ x ∈ xs, dec (enc x) = some x := by
  induction xs with
  | nil => simp
  | cons x xs ih =>
    rw [List.forall_mem_cons, ← ih, List.map_cons, List.mapM_cons]
    cases dec (enc x) <;> cases (xs.map enc).mapM dec <;> simp

theorem exists_of_mem_mapM {ι ν : Type} {dec : ν → Option ι} {vs : List ν} : ∀ {xs : List ι},
    vs.mapM dec = some xs → ∀ x ∈ xs, ∃ v ∈ vs, dec v = some x := by
  induction vs with
  | nil =>
    intro xs h
    obtain rfl : [] = xs := by simpa using h
    simp
  | cons v vs ih =>
    intro xs h
    rw [List.mapM_cons] at h
    obtain ⟨y, hy, h⟩ := Option.bind_eq_some_iff.mp h
    obtain ⟨ys, hys, h⟩ := Option.bind_eq_some_iff.mp h
    obtain rfl := Option.some.inj h
    intro x hx
    rcases List.mem_cons.mp hx with rfl | hx
    · exact ⟨v, List.mem_cons_self, hy⟩
    · obtain ⟨w, hw, hdec⟩ := ih hys x hx
      exact ⟨w, List.mem_cons_of_mem v hw, hdec⟩

/-- A `Vec`. -/
def listValue (value : ValueCodec Json α) : ValueCodec Json (List α) where
  enc xs := array (xs.map value.enc)
  dec
    | array vs => vs.mapM value.dec
    | _ => none
  Fits xs := ∀ x ∈ xs, value.Fits x
  Lossless xs := ∀ x ∈ xs, value.Lossless x
  dec_enc h hlossless :=
    mapM_map_enc_iff.mpr fun x hx => value.dec_enc (h x hx) (hlossless x hx)
  fits_of_dec {v xs} h := by
    cases v with
    | array vs =>
      intro x hx
      obtain ⟨v, -, hv⟩ := exists_of_mem_mapM h x hx
      exact value.fits_of_dec hv
    | _ => cases h
  lossless_of_back h x hx := value.lossless_of_back (mapM_map_enc_iff.mp h x hx)

/-- A struct: written as an object, read from one or from the values of its fields in an array. -/
def structValue (fields : RecordCodec String Json α) : ValueCodec Json α where
  enc a := object (fields.enc a)
  dec
    | object entries => fields.dec entries
    | array vs => match fields.decSeq vs with
      | some (a, []) => some a
      | _ => none
    | _ => none
  Fits := fields.Fits
  Lossless := fields.Lossless
  dec_enc := fields.dec_enc
  fits_of_dec {v a} h := by
    cases v with
    | object entries => exact fields.fits_of_dec h
    | array vs =>
      dsimp only at h
      split at h
      next b hseq =>
        obtain rfl := Option.some.inj h
        obtain ⟨used, -, -, -, hdec⟩ := fields.dec_of_decSeq hseq
        exact fields.fits_of_dec hdec
      next => cases h
    | _ => cases h
  lossless_of_back := fields.lossless_of_back

/-- An array that is read as a struct is short enough, and read as the object with its values under
the names of the fields. -/
theorem structValue_array {fields : RecordCodec String Json α} {vs : List Json} {a : α}
    (h : (structValue fields).dec (array vs) = some a) :
    vs.length ≤ fields.keys.length ∧
      (structValue fields).dec (object (fields.keys.zip vs)) = some a := by
  change (match fields.decSeq vs with
    | some (a, []) => some a
    | _ => none) = some a at h
  split at h
  next b hseq =>
    obtain rfl := Option.some.inj h
    obtain ⟨used, rfl, hle, -, hdec⟩ := fields.dec_of_decSeq hseq
    rw [List.append_nil]
    exact ⟨hle, hdec⟩
  next => cases h

def f32Value : ValueCodec Json F32 where
  enc := F32.toJson
  dec := F32.ofJson
  Fits := F32.Numeric
  Lossless := F32.Finite
  dec_enc _ h := F32.ofJson_toJson_iff.mpr h
  fits_of_dec := F32.numeric_of_ofJson
  lossless_of_back := F32.ofJson_toJson_iff.mp

end Json

def PlatformKind.name : PlatformKind → String
  | desktop => "desktop"
  | headless => "headless"
  | web => "web"
  | mobile => "mobile"

def HelloAuth.name : HelloAuth → String
  | none => "none"
  | required => "required"

namespace ResponseJson

open Json RecordCodec RequestJson

/-- A field `#[serde(default)]`. -/
def dflt {α : Type} (key : String) (value : ValueCodec Json α) (default : α)
    (fits : value.Fits default) : RecordCodec String Json α :=
  field key (.defaulted value default fits)

theorem stringValue_ne_null (s : String) : stringValue.enc s ≠ null := nofun

theorem boolValue_ne_null (b : Bool) : boolValue.enc b ≠ null := nofun

theorem u64Value_ne_null (n : Nat) : u64Value.enc n ≠ null := nofun

/-- A field `#[serde(skip_serializing_if = "Option::is_none")]`, without a default. -/
def bare {α : Type} (key : String) (value : ValueCodec Json α)
    (h : ∀ a, value.enc a ≠ null := by nofun) : RecordCodec String Json (Option α) :=
  field key (.optional value null (fun _ a _ _ => h a) false)

/-- A field `#[serde(default, skip_serializing_if = "Vec::is_empty")]`. -/
def vec {α : Type} (key : String) (value : ValueCodec Json α) : RecordCodec String Json (List α) :=
  field key (.skipped (listValue value) List.isEmpty [] (fun _ => List.isEmpty_iff.mp)
    fun _ h => absurd h List.not_mem_nil)

@[simp] theorem dflt_keys {α : Type} (key : String) (value : ValueCodec Json α) (default : α)
    (fits : value.Fits default) : (dflt key value default fits).keys = [key] := (rfl)

@[simp] theorem bare_keys {α : Type} (key : String) (value : ValueCodec Json α)
    (h : ∀ a, value.enc a ≠ null) : (bare key value h).keys = [key] := (rfl)

theorem bare_enc {α : Type} (key : String) (value : ValueCodec Json α) (h : ∀ a, value.enc a ≠ null)
    (o : Option α) : (bare key value h).enc o = (o.map fun a => (key, value.enc a)).toList := by
  cases o <;> rfl

@[simp] theorem vec_keys {α : Type} (key : String) (value : ValueCodec Json α) :
    (vec key value).keys = [key] := (rfl)

@[simp] theorem dflt_fits {α : Type} (key : String) (value : ValueCodec Json α) (default : α)
    (fits : value.Fits default) (a : α) : (dflt key value default fits).Fits a ↔ value.Fits a :=
  Iff.rfl

@[simp] theorem dflt_lossless {α : Type} (key : String) (value : ValueCodec Json α) (default : α)
    (fits : value.Fits default) (a : α) :
    (dflt key value default fits).Lossless a ↔ value.Lossless a := Iff.rfl

@[simp] theorem bare_fits {α : Type} (key : String) (value : ValueCodec Json α)
    (h : ∀ a, value.enc a ≠ null) (o : Option α) :
    (bare key value h).Fits o ↔ ∀ a ∈ o, value.Fits a := opt_fits key value h o

@[simp] theorem bare_lossless {α : Type} (key : String) (value : ValueCodec Json α)
    (h : ∀ a, value.enc a ≠ null) (o : Option α) :
    (bare key value h).Lossless o ↔ ∀ a ∈ o, value.Lossless a := Iff.rfl

@[simp] theorem vec_fits {α : Type} (key : String) (value : ValueCodec Json α) (xs : List α) :
    (vec key value).Fits xs ↔ ∀ x ∈ xs, value.Fits x := Iff.rfl

@[simp] theorem vec_lossless {α : Type} (key : String) (value : ValueCodec Json α) (xs : List α) :
    (vec key value).Lossless xs ↔ ∀ x ∈ xs, value.Lossless x := by
  cases xs with
  | nil => exact iff_of_true nofun (List.forall_mem_nil _)
  | cons x xs => exact ⟨fun h => h rfl, fun h _ => h⟩

/-- The fields of `Bounds`. -/
def boundsFields : RecordCodec String Json Bounds :=
  ((req "x" f32Value).pair ((req "y" f32Value).pair ((req "w" f32Value).pair
    (req "h" f32Value)))).inject
    (fun ⟨x, y, w, h⟩ => ⟨x, y, w, h⟩) (fun b => some (b.x, b.y, b.w, b.h)) fun _ => rfl

theorem boundsFields_fits (b : Bounds) : boundsFields.Fits b ↔ b.Numeric := by
  obtain ⟨x, y, w, h⟩ := b
  simp [boundsFields, inject_fits, f32Value, Bounds.Numeric]

theorem boundsFields_lossless (b : Bounds) : boundsFields.Lossless b ↔ b.Finite := by
  obtain ⟨x, y, w, h⟩ := b
  simp [boundsFields, f32Value, Bounds.Finite]

theorem boolValue_fits (value : Bool) : boolValue.Fits value := trivial

theorem zero_fits : (structValue boundsFields).Fits .zero :=
  (boundsFields_fits .zero).mpr Bounds.zero_finite.numeric

def isVisible (value : Bool) : Bool := value

/-- The fields of a `UiNode`, over a codec for its children. -/
def nodeFields (children : ValueCodec Json UiNode) : RecordCodec String Json UiNode :=
  ((req "id" stringValue).pair ((req "role" stringValue).pair ((req "name" stringValue).pair
    ((opt "value" stringValue stringValue_ne_null).pair
      ((opt "checked" boolValue boolValue_ne_null).pair
      ((dflt "enabled" boolValue false (boolValue_fits _)).pair
        ((dflt "focused" boolValue false (boolValue_fits _)).pair
          ((field "visible" (.skipped boolValue isVisible true (fun _ h => h) trivial)).pair
            ((dflt "bounds" (structValue boundsFields) .zero zero_fits).pair
              ((vec "states" stringValue).pair (vec "children" children))))))))))).inject
    (fun ⟨id, role, name, value, checked, enabled, focused, visible, bounds, states, children⟩ =>
      node ⟨id, role, name, value, checked, enabled, focused, visible, bounds, states⟩ children)
    (fun
      | node a children => some (a.id, a.role, a.name, a.value, a.checked, a.enabled, a.focused,
        a.visible, a.bounds, a.states, children)) fun _ => rfl

theorem nodeFields_fits (codec : ValueCodec Json UiNode) (a : NodeFields) (cs : List UiNode) :
    (nodeFields codec).Fits (node a cs) ↔ a.bounds.Numeric ∧ ∀ c ∈ cs, codec.Fits c := by
  obtain ⟨id, role, name, value, checked, enabled, focused, visible, bounds, states⟩ := a
  simp [nodeFields, inject_fits, stringValue, boolValue, structValue, boundsFields_fits,
    FieldCodec.skipped]

theorem nodeFields_lossless (codec : ValueCodec Json UiNode) (a : NodeFields) (cs : List UiNode) :
    (nodeFields codec).Lossless (node a cs) ↔ a.bounds.Finite ∧ ∀ c ∈ cs, codec.Lossless c := by
  obtain ⟨id, role, name, value, checked, enabled, focused, visible, bounds, states⟩ := a
  simp [nodeFields, stringValue, boolValue, structValue, boundsFields_lossless, FieldCodec.skipped]

/-- The entries of a node, in the order of its text. -/
def nodeEntries (a : NodeFields) (children : List Json) : List (String × Json) :=
  [("id", .string a.id), ("role", .string a.role), ("name", .string a.name)] ++
    (a.value.map fun value => ("value", .string value)).toList ++
    (a.checked.map fun checked => ("checked", .bool checked)).toList ++
    [("enabled", .bool a.enabled), ("focused", .bool a.focused)] ++
    (if isVisible a.visible then [] else [("visible", .bool a.visible)]) ++
    [("bounds", .object (boundsFields.enc a.bounds))] ++
    (if a.states.isEmpty then [] else [("states", .strings a.states)]) ++
    (if children.isEmpty then [] else [("children", .array children)])

mutual
def nodeJson : UiNode → Json
  | node a cs => .object (nodeEntries a (childrenJson cs))
def childrenJson : List UiNode → List Json
  | [] => []
  | n :: ns => nodeJson n :: childrenJson ns
end

theorem childrenJson_eq (cs : List UiNode) : childrenJson cs = cs.map nodeJson := by
  induction cs with
  | nil => rfl
  | cons c cs ih => rw [childrenJson, ih, List.map_cons]

/-- A node, read down to a level: the parser of `serde_json` stops at a depth of its own. -/
def nodeValue : Nat → ValueCodec Json UiNode
  | 0 => ⟨nodeJson, fun _ => none, fun _ => False, fun _ => False, fun h => h.elim, nofun, nofun⟩
  | levels + 1 => structValue (nodeFields (nodeValue levels))

theorem nodeValue_enc (levels : Nat) : (nodeValue levels).enc = nodeJson := by
  induction levels with
  | zero => rfl
  | succ levels ih =>
    funext t
    obtain ⟨a, cs⟩ := t
    obtain ⟨id, role, name, value, checked, enabled, focused, visible, bounds, states⟩ := a
    show Json.object ((nodeFields (nodeValue levels)).enc _) = nodeJson _
    have hchildren : (vec "children" (nodeValue levels)).enc cs =
        if (childrenJson cs).isEmpty then [] else [("children", .array (childrenJson cs))] := by
      rw [childrenJson_eq, ← ih]
      cases cs <;> rfl
    have hstates : (vec "states" stringValue).enc states =
        if states.isEmpty then [] else [("states", .strings states)] := by
      cases states <;> rfl
    rw [nodeJson, nodeEntries, ← hchildren, ← hstates]
    cases value <;> cases checked <;> cases visible <;> rfl

/-- What is asked level by level of the nodes of a forest that is not too deep. -/
theorem forest_iff {P : Nat → UiNode → Prop} {Q : Bounds → Prop} (base : ∀ t, ¬ P 0 t)
    (step : ∀ levels a cs, P (levels + 1) (node a cs) ↔ Q a.bounds ∧ ∀ c ∈ cs, P levels c)
    (levels : Nat) : ∀ (F : List UiNode) (path : List String),
    (∀ t ∈ F, P levels t) ↔ ∀ row ∈ Forest.rows NodeFields.id path F,
      row.1.length < path.length + levels ∧ Q row.2.bounds := by
  induction levels with
  | zero =>
    intro F path
    cases F with
    | nil => simp
    | cons t ts =>
      obtain ⟨a, cs⟩ := t
      constructor
      · exact fun h => absurd (h _ List.mem_cons_self) (base _)
      · intro h
        have hroot := (h (path, a) (by simp)).1
        simp at hroot
  | succ levels ih =>
    intro F
    induction F with
    | nil => simp
    | cons t ts iht =>
      intro path
      obtain ⟨a, cs⟩ := t
      have hlen : (NodeFields.id a :: path).length + levels = path.length + (levels + 1) := by
        rw [List.length_cons]
        omega
      have hchildren := ih cs (NodeFields.id a :: path)
      rw [hlen] at hchildren
      rw [List.forall_mem_cons, step, hchildren, iht path, Forest.rows_cons,
        List.forall_mem_cons, List.forall_mem_append]
      constructor
      · rintro ⟨⟨hbounds, hcs⟩, hts⟩
        exact ⟨⟨by simp, hbounds⟩, hcs, hts⟩
      · rintro ⟨⟨-, hbounds⟩, hcs, hts⟩
        exact ⟨⟨hbounds, hcs⟩, hts⟩

theorem forest_fits (levels : Nat) (F : List UiNode) : (∀ t ∈ F, (nodeValue levels).Fits t) ↔
    ∀ row ∈ Forest.rows NodeFields.id [] F, row.1.length < levels ∧ row.2.bounds.Numeric := by
  have h := @forest_iff (fun levels => (nodeValue levels).Fits) Bounds.Numeric (fun _ => id)
    (fun levels => nodeFields_fits (nodeValue levels)) levels F []
  rwa [List.length_nil, Nat.zero_add] at h

theorem forest_lossless (levels : Nat) (F : List UiNode) :
    (∀ t ∈ F, (nodeValue levels).Lossless t) ↔
      ∀ row ∈ Forest.rows NodeFields.id [] F, row.1.length < levels ∧ row.2.bounds.Finite := by
  have h := @forest_iff (fun levels => (nodeValue levels).Lossless) Bounds.Finite (fun _ => id)
    (fun levels => nodeFields_lossless (nodeValue levels)) levels F []
  rwa [List.length_nil, Nat.zero_add] at h

section Reply

-- the place among these names of the one that `serde` takes a value for that is not a string
variable (variantOf : List String → Json → Option Nat)

def platformValue : ValueCodec Json PlatformKind :=
  named variantOf PlatformKind.name [.desktop, .headless, .web, .mobile] []
    (fun i => by cases i <;> decide) (by decide)

def authValue : ValueCodec Json HelloAuth :=
  named variantOf HelloAuth.name [.none, .required] [] (fun i => by cases i <;> decide) (by decide)

theorem authValue_fits (auth : HelloAuth) : (authValue variantOf).Fits auth := trivial

theorem stringValue_fits (value : String) : stringValue.Fits value := trivial

/-- The fields of a `HelloInfo`; `hostOs` is what the reader runs on. -/
def helloFields (hostOs : String) : RecordCodec String Json HelloInfo :=
  ((req "protocol" u32Value).pair ((req "app" stringValue).pair
    ((req "platform" (platformValue variantOf)).pair
      ((dflt "os" stringValue hostOs (stringValue_fits _)).pair ((req "ready" boolValue).pair
        ((vec "deliveries" (deliveryValue variantOf)).pair
          ((dflt "auth" (authValue variantOf) .none (authValue_fits variantOf _)).pair
            ((opt "bundle_id" stringValue stringValue_ne_null).pair
              ((opt "executable" stringValue stringValue_ne_null).pair
              (vec "features" stringValue)))))))))).inject
    (fun ⟨protocol, app, platform, os, ready, deliveries, auth, bundleId, executable, features⟩ =>
      ⟨protocol, app, platform, os, ready, deliveries, auth, bundleId, executable, features⟩)
    (fun h => some (h.protocol, h.app, h.platform, h.os, h.ready, h.deliveries, h.auth, h.bundleId,
      h.executable, h.features)) fun _ => rfl

theorem helloFields_fits (hostOs : String) (hello : HelloInfo) :
    (helloFields variantOf hostOs).Fits hello ↔ hello.protocol < 2 ^ 32 := by
  obtain ⟨protocol, app, platform, os, ready, deliveries, auth, bundleId, executable, features⟩ :=
    hello
  simp [helloFields, inject_fits, u32Value, stringValue, boolValue, platformValue, deliveryValue,
    authValue, named]

theorem helloFields_lossless (hostOs : String) (hello : HelloInfo) :
    (helloFields variantOf hostOs).Lossless hello := by
  obtain ⟨protocol, app, platform, os, ready, deliveries, auth, bundleId, executable, features⟩ :=
    hello
  simp [helloFields, u32Value, stringValue, boolValue, platformValue, deliveryValue, authValue,
    named]

/-- The fields of a `UiTree`, read down to a level. -/
def treeFields (levels : Nat) : RecordCodec String Json UiTree :=
  ((req "app" stringValue).pair ((req "platform" (platformValue variantOf)).pair
    ((req "ready" boolValue).pair ((req "nodes" (listValue (nodeValue levels))).pair
      (opt "rev" u64Value u64Value_ne_null))))).inject
    (fun ⟨app, platform, ready, nodes, rev⟩ => ⟨app, platform, ready, nodes, rev⟩)
    (fun t => some (t.app, t.platform, t.ready, t.nodes, t.rev)) fun _ => rfl

end Reply

end ResponseJson

/-- The tree is no deeper than these levels, its bounds are of this kind, and its revision is in
range. -/
def UiTree.FitsWith (kind : Bounds → Prop) (levels : Nat) (t : UiTree) : Prop :=
  (∀ row ∈ t.rows, row.1.length < levels ∧ kind row.2.bounds) ∧ ∀ n ∈ t.rev, n < 2 ^ 64

/-- The tree is read back from what is written: its bounds are finite. -/
abbrev UiTree.Fits (levels : Nat) (t : UiTree) : Prop := t.FitsWith Bounds.Finite levels

namespace ResponseJson

open Json RecordCodec RequestJson

theorem treeFields_fits (variantOf : List String → Json → Option Nat) (levels : Nat) (t : UiTree) :
    (treeFields variantOf levels).Fits t ↔ t.FitsWith Bounds.Numeric levels := by
  obtain ⟨app, platform, ready, nodes, rev⟩ := t
  rw [UiTree.FitsWith, UiTree.rows, ← forest_fits]
  simp [treeFields, inject_fits, stringValue, platformValue, named, boolValue, listValue, u64Value]

theorem treeFields_lossless (variantOf : List String → Json → Option Nat) (levels : Nat)
    (t : UiTree) : (treeFields variantOf levels).Lossless t ↔
      ∀ row ∈ t.rows, row.1.length < levels ∧ row.2.bounds.Finite := by
  obtain ⟨app, platform, ready, nodes, rev⟩ := t
  rw [UiTree.rows, ← forest_lossless]
  simp [treeFields, stringValue, platformValue, named, boolValue, listValue, u64Value]

/-- The map that the entries of an object stand for: a later entry takes the place of an earlier. -/
def mapOf (entries : List (String × UInt64)) : Std.TreeMap String UInt64 :=
  entries.foldl (fun m e => m.insert e.1 e.2) ∅

theorem mapOf_toList (m : Std.TreeMap String UInt64) : (mapOf m.toList).toList = m.toList := by
  apply toList_eq_of_getElem?_eq
  intro k
  have hkeys : (m.toList.map Prod.fst).Nodup := by
    rw [Std.TreeMap.map_fst_toList_eq_keys]
    exact Std.TreeMap.nodup_keys
  apply Option.ext
  intro v
  rw [mapOf, getElem?_foldl_insert hkeys]
  constructor
  · rintro (⟨e, he, rfl, rfl⟩ | ⟨-, hnone⟩)
    · exact Std.TreeMap.mem_toList_iff_getElem?_eq_some.mp he
    · simp at hnone
  · exact fun h => .inl ⟨(k, v), Std.TreeMap.mem_toList_iff_getElem?_eq_some.mpr h, rfl, rfl⟩

/-- The entries of a map in the order of their keys. -/
def Listing : Type := { entries : List (String × UInt64) // (mapOf entries).toList = entries }

def Listing.of (m : Std.TreeMap String UInt64) : Listing := ⟨m.toList, mapOf_toList m⟩

def Listing.map (listing : Listing) : Std.TreeMap String UInt64 := mapOf listing.1

theorem Listing.of_map (listing : Listing) : Listing.of listing.map = listing :=
  Subtype.ext listing.2

/-- A `BTreeMap` of fingerprints. -/
def listingValue : ValueCodec Json Listing where
  enc listing := .object (listing.1.map fun e => (e.1, fingerprintValue.enc e.2))
  dec
    | .object entries =>
      (entries.mapM fun e => (fingerprintValue.dec e.2).map fun fp => (e.1, fp)).map fun es =>
        .of (mapOf es)
    | _ => none
  Fits _ := True
  Lossless _ := True
  dec_enc {listing} _ _ := by
    have hentries : (listing.1.map fun e : String × UInt64 => (e.1, fingerprintValue.enc e.2)).mapM
        (fun e => (fingerprintValue.dec e.2).map fun fp => (e.1, fp)) = some listing.1 := by
      apply mapM_map_enc_iff.mpr
      intro e _
      rw [fingerprintValue.dec_enc trivial trivial]
      rfl
    show Option.map _ (List.mapM _ _) = some listing
    rw [hentries]
    exact congrArg some listing.of_map
  fits_of_dec _ := trivial
  lossless_of_back _ := trivial

def responseKeys : List String :=
  ["v", "id", "ok", "error", "hello", "tree", "result", "fingerprints", "rev"]

/-- The fields of a reply, the fingerprints by their entries. -/
abbrev ReplyParts : Type := Nat × String × Bool × Option String × Option HelloInfo ×
  Option UiTree × Option Json × Option Listing × Option Nat

def replyOf : ReplyParts → Response :=
  fun ⟨v, id, ok, error, hello, tree, result, fingerprints, rev⟩ =>
    ⟨v, id, ok, error, hello, tree, result, fingerprints.map Listing.map, rev⟩

def partsOf (resp : Response) : ReplyParts :=
  (resp.v, resp.id, resp.ok, resp.error, resp.hello, resp.tree, resp.result,
    resp.fingerprints.map Listing.of, resp.rev)

theorem partsOf_replyOf (parts : ReplyParts) : partsOf (replyOf parts) = parts := by
  obtain ⟨v, id, ok, error, hello, tree, result, fingerprints, rev⟩ := parts
  cases fingerprints with
  | none => rfl
  | some listing => simp [partsOf, replyOf, Listing.of_map]

section Fields

variable (variantOf : List String → Json → Option Nat) (hostOs : String) (levels : Nat)

def resultField : RecordCodec String Json (Option Json) :=
  field "result" (.optional anyValue null (fun _ _ hx hv => Option.some.inj hv ▸ hx) false)

@[simp] theorem resultField_keys : resultField.keys = ["result"] := (rfl)

theorem resultField_fits (result : Option Json) : resultField.Fits result ↔ result ≠ some .null := by
  constructor
  · exact fun h hnull => (h .null hnull).2 rfl
  · rintro h v rfl
    exact ⟨trivial, fun hnull => h (congrArg some hnull)⟩

theorem resultField_lossless (result : Option Json) : resultField.Lossless result :=
  fun _ _ => trivial

theorem resultField_enc (result : Option Json) :
    resultField.enc result = (result.map fun v => ("result", v)).toList := by
  cases result <;> rfl

/-- The fields of a `Response`, with trees read down to a level. -/
def replyFields : RecordCodec String Json ReplyParts :=
  (req "v" u32Value).pair ((req "id" stringValue).pair ((req "ok" boolValue).pair
    ((bare "error" stringValue stringValue_ne_null).pair
      ((bare "hello" (structValue (helloFields variantOf hostOs))).pair
      ((bare "tree" (structValue (treeFields variantOf levels))).pair (resultField.pair
        ((opt "fingerprints" listingValue).pair (opt "rev" u64Value u64Value_ne_null))))))))

def responseFields : RecordCodec String Json Response :=
  (replyFields variantOf hostOs levels).inject replyOf (fun resp => some (partsOf resp))
    fun parts => congrArg some (partsOf_replyOf parts)

@[simp] theorem responseFields_keys : (responseFields variantOf hostOs levels).keys =
    responseKeys := (rfl)

end Fields

/-- The fields of a `Challenge`. -/
def challengeFields : RecordCodec String Json Challenge :=
  ((req "v" u32Value).pair ((req "op" stringValue).pair (req "nonce" stringValue))).inject
    (fun ⟨v, op, nonce⟩ => ⟨v, op, nonce⟩) (fun c => some (c.v, c.op, c.nonce)) fun _ => rfl

end ResponseJson

/-- The numbers of the reply are in range, its tree is no deeper than these levels and has bounds of
this kind, and its result is not null. -/
def Response.FitsWith (kind : Bounds → Prop) (levels : Nat) (resp : Response) : Prop :=
  resp.v < 2 ^ 32 ∧ (∀ hello ∈ resp.hello, hello.protocol < 2 ^ 32) ∧
    (∀ tree ∈ resp.tree, tree.FitsWith kind levels) ∧ resp.result ≠ some .null ∧
    ∀ n ∈ resp.rev, n < 2 ^ 64

/-- The reply is read back from what is written: its bounds are finite. -/
abbrev Response.Fits (levels : Nat) (resp : Response) : Prop := resp.FitsWith Bounds.Finite levels

/-- Equal replies, up to how the map of fingerprints is built. -/
structure Response.SameAs (a b : Response) : Prop where
  v : a.v = b.v
  id : a.id = b.id
  ok : a.ok = b.ok
  error : a.error = b.error
  hello : a.hello = b.hello
  tree : a.tree = b.tree
  result : a.result = b.result
  fingerprints : a.fingerprints.map (fun m => m.toList) = b.fingerprints.map fun m => m.toList
  rev : a.rev = b.rev

open Json ResponseJson

def HelloInfo.entries (hello : HelloInfo) : List (String × Json) :=
  [("protocol", .nat hello.protocol), ("app", .string hello.app),
    ("platform", .string hello.platform.name), ("os", .string hello.os),
    ("ready", .bool hello.ready)] ++
    (if hello.deliveries.isEmpty then []
      else [("deliveries", .array (hello.deliveries.map fun mode => .string mode.name))]) ++
    [("auth", .string hello.auth.name)] ++
    (hello.bundleId.map fun bundleId => ("bundle_id", .string bundleId)).toList ++
    (hello.executable.map fun executable => ("executable", .string executable)).toList ++
    (if hello.features.isEmpty then [] else [("features", .strings hello.features)])

def UiTree.entries (t : UiTree) : List (String × Json) :=
  [("app", .string t.app), ("platform", .string t.platform.name), ("ready", .bool t.ready),
    ("nodes", .array (childrenJson t.nodes))] ++ (t.rev.map fun rev => ("rev", .nat rev)).toList

/-- A `BTreeMap` of fingerprints as an object. -/
def fingerprintsJson (m : Std.TreeMap String UInt64) : Json :=
  .object (m.toList.map fun e => (e.1, .nat e.2.toNat))

/-- The entries of a reply, in the order of its text. -/
def encodeResponse (resp : Response) : List (String × Json) :=
  [("v", .nat resp.v), ("id", .string resp.id), ("ok", .bool resp.ok)] ++
    (resp.error.map fun error => ("error", .string error)).toList ++
    (resp.hello.map fun hello => ("hello", .object hello.entries)).toList ++
    (resp.tree.map fun tree => ("tree", .object tree.entries)).toList ++
    (resp.result.map fun result => ("result", result)).toList ++
    (resp.fingerprints.map fun m => ("fingerprints", fingerprintsJson m)).toList ++
    (resp.rev.map fun rev => ("rev", .nat rev)).toList

def encodeChallenge (challenge : Challenge) : List (String × Json) :=
  [("v", .nat challenge.v), ("op", .string challenge.op), ("nonce", .string challenge.nonce)]

/-- The reply that the entries of an object in their order stand for, to a reader on `hostOs` that
reads trees down to a level. -/
def decodeResponse (variantOf : List String → Json → Option Nat) (hostOs : String) (levels : Nat)
    (entries : List (String × Json)) : Option Response :=
  (responseFields variantOf hostOs levels).dec entries

def decodeChallenge (entries : List (String × Json)) : Option Challenge :=
  challengeFields.dec entries

/-- The reply that a `serde_json::Value` stands for: an object, or an array of the values of the
fields. -/
def responseFromJson (variantOf : List String → Json → Option Nat) (hostOs : String) (levels : Nat) :
    Json → Option Response :=
  (structValue (responseFields variantOf hostOs levels)).dec

def challengeFromJson : Json → Option Challenge := (structValue challengeFields).dec

theorem responseFromJson_object (variantOf : List String → Json → Option Nat) (hostOs : String)
    (levels : Nat) (entries : List (String × Json)) :
    responseFromJson variantOf hostOs levels (.object entries) =
      decodeResponse variantOf hostOs levels entries := rfl

namespace ResponseJson

open RequestJson RecordCodec

variable (variantOf : List String → Json → Option Nat) (hostOs : String) (levels : Nat)

theorem helloFields_enc (hello : HelloInfo) :
    (helloFields variantOf hostOs).enc hello = hello.entries := by
  obtain ⟨protocol, app, platform, os, ready, deliveries, auth, bundleId, executable, features⟩ :=
    hello
  cases bundleId <;> cases executable <;> cases deliveries <;> cases features <;> rfl

theorem treeFields_enc (t : UiTree) : (treeFields variantOf levels).enc t = t.entries := by
  obtain ⟨app, platform, ready, nodes, rev⟩ := t
  rw [UiTree.entries, childrenJson_eq, ← nodeValue_enc levels]
  cases rev <;> rfl

theorem responseFields_enc (resp : Response) :
    (responseFields variantOf hostOs levels).enc resp = encodeResponse resp := by
  show (replyFields variantOf hostOs levels).enc (partsOf resp) = _
  obtain ⟨v, id, ok, error, hello, tree, result, fingerprints, rev⟩ := resp
  have hhello : (structValue (helloFields variantOf hostOs)).enc =
      fun hello => .object hello.entries := by
    funext hello
    exact congrArg Json.object (helloFields_enc variantOf hostOs hello)
  have htree : (structValue (treeFields variantOf levels)).enc = fun t => .object t.entries := by
    funext t
    exact congrArg Json.object (treeFields_enc variantOf levels t)
  simp only [replyFields, partsOf, pair_enc, opt_enc, bare_enc, resultField_enc, hhello, htree,
    Option.map_map, encodeResponse, List.append_assoc]
  rfl

theorem replyFields_fits (resp : Response) :
    (replyFields variantOf hostOs levels).Fits (partsOf resp) ↔
      resp.FitsWith Bounds.Numeric levels := by
  obtain ⟨v, id, ok, error, hello, tree, result, fingerprints, rev⟩ := resp
  simp [replyFields, partsOf, u32Value, stringValue, boolValue, u64Value, structValue, listingValue,
    helloFields_fits, treeFields_fits, resultField_fits, Response.FitsWith]

theorem replyFields_lossless (resp : Response) :
    (replyFields variantOf hostOs levels).Lossless (partsOf resp) ↔
      ∀ tree ∈ resp.tree, ∀ row ∈ tree.rows, row.1.length < levels ∧ row.2.bounds.Finite := by
  obtain ⟨v, id, ok, error, hello, tree, result, fingerprints, rev⟩ := resp
  simp [replyFields, partsOf, u32Value, stringValue, boolValue, u64Value, structValue, listingValue,
    helloFields_lossless, treeFields_lossless, resultField_lossless]

/-- What is finite is a number, so what is read back is what fits with finite bounds. -/
theorem fits_iff (resp : Response) : resp.Fits levels ↔
    resp.FitsWith Bounds.Numeric levels ∧
      ∀ tree ∈ resp.tree, ∀ row ∈ tree.rows, row.1.length < levels ∧ row.2.bounds.Finite := by
  constructor
  · rintro ⟨hv, hhello, htree, hresult, hrev⟩
    refine ⟨⟨hv, hhello, fun tree hmem => ?_, hresult, hrev⟩, fun tree hmem => (htree tree hmem).1⟩
    obtain ⟨hrows, hrev⟩ := htree tree hmem
    exact ⟨fun row hrow => ⟨(hrows row hrow).1, (hrows row hrow).2.numeric⟩, hrev⟩
  · rintro ⟨⟨hv, hhello, htree, hresult, hrev⟩, hfinite⟩
    exact ⟨hv, hhello, fun tree hmem => ⟨hfinite tree hmem, (htree tree hmem).2⟩, hresult, hrev⟩

theorem sameAs_replyOf (resp : Response) : (replyOf (partsOf resp)).SameAs resp where
  v := rfl
  id := rfl
  ok := rfl
  error := rfl
  hello := rfl
  tree := rfl
  result := rfl
  rev := rfl
  fingerprints := by
    show ((resp.fingerprints.map Listing.of).map Listing.map).map _ = _
    rw [Option.map_map, Option.map_map]
    congr 1
    funext m
    exact mapOf_toList m

theorem partsOf_congr {a b : Response} (h : a.SameAs b) : partsOf a = partsOf b := by
  have hfingerprints : a.fingerprints.map Listing.of = b.fingerprints.map Listing.of := by
    have hmaps := h.fingerprints
    cases ha : a.fingerprints with
    | none =>
      rw [ha] at hmaps
      rw [Option.map_eq_none_iff.mp hmaps.symm]
    | some m =>
      rw [ha] at hmaps
      obtain ⟨m', hm', hlists⟩ := Option.map_eq_some_iff.mp hmaps.symm
      rw [hm']
      exact congrArg some (Subtype.ext hlists.symm)
  rw [partsOf, partsOf, h.v, h.id, h.ok, h.error, h.hello, h.tree, h.result, hfingerprints, h.rev]

theorem responseFields_fits {resp : Response}
    (h : (responseFields variantOf hostOs levels).Fits resp) :
    resp.FitsWith Bounds.Numeric levels := by
  obtain ⟨parts, hfits, rfl⟩ := h
  rw [← replyFields_fits variantOf hostOs, partsOf_replyOf]
  exact hfits

/-- What fits is read as the same reply. -/
theorem decodeResponse_encodeResponse {resp : Response} (h : resp.Fits levels) :
    ∃ back, decodeResponse variantOf hostOs levels (encodeResponse resp) = some back ∧
      back.SameAs resp := by
  obtain ⟨hfits, hlossless⟩ := (fits_iff levels resp).mp h
  refine ⟨replyOf (partsOf resp), ?_, sameAs_replyOf resp⟩
  rw [← responseFields_enc variantOf hostOs levels]
  exact inject_dec_enc _ rfl ((replyFields_fits variantOf hostOs levels resp).mpr hfits)
    ((replyFields_lossless variantOf hostOs levels resp).mpr hlossless)

/-- What is read as the same reply fits. -/
theorem fits_of_back {resp back : Response}
    (h : decodeResponse variantOf hostOs levels (encodeResponse resp) = some back)
    (same : back.SameAs resp) : resp.Fits levels := by
  rw [← responseFields_enc variantOf hostOs levels] at h
  obtain ⟨parts, hdec, rfl⟩ := made_of_dec h
  have hparts : parts = partsOf resp := by
    rw [← partsOf_congr same, partsOf_replyOf]
  subst hparts
  have hback : (replyFields variantOf hostOs levels).dec
      ((replyFields variantOf hostOs levels).enc (partsOf resp)) = some (partsOf resp) := hdec
  rw [dec_enc_iff, replyFields_fits, replyFields_lossless] at hback
  exact (fits_iff levels resp).mpr hback

theorem decodeChallenge_encodeResponse (resp : Response) :
    decodeChallenge (encodeResponse resp) = none := by
  have hmissing : (req "op" stringValue).dec (encodeResponse resp) = none := by
    apply required_dec_of_missing
    intro e he heq
    rw [← responseFields_enc (fun _ _ => none) "" 0] at he
    have hkey := (responseFields (fun _ _ => none) "" 0).enc_keys resp e he
    simp [heq, responseKeys] at hkey
  cases hdec : decodeChallenge (encodeResponse resp) with
  | none => rfl
  | some challenge =>
    obtain ⟨⟨v, op, nonce⟩, hparts, -⟩ := made_of_dec hdec
    rw [((pair_dec _ _ _).mp ((pair_dec _ _ _).mp hparts).2).1] at hmissing
    cases hmissing

theorem decodeResponse_encodeChallenge (challenge : Challenge) :
    decodeResponse variantOf hostOs levels (encodeChallenge challenge) = none := by
  have hmissing : (req "id" stringValue).dec (encodeChallenge challenge) = none := by
    apply required_dec_of_missing
    simp [encodeChallenge]
  cases hdec : decodeResponse variantOf hostOs levels (encodeChallenge challenge) with
  | none => rfl
  | some resp =>
    obtain ⟨⟨v, id, parts⟩, hparts, -⟩ := made_of_dec hdec
    rw [((pair_dec _ _ _).mp ((pair_dec _ _ _).mp hparts).2).1] at hmissing
    cases hmissing

end ResponseJson

/-- The client reads back a reply that the host writes exactly if it fits, and takes neither a reply
for a challenge nor a challenge for a reply. What it reads at all fits, with bounds that may be
infinite. From an array it reads what it would read from the object with the names of the fields;
from an object that has each of its keys once the same from the entries in any order, among any
others. -/
theorem response_json (variantOf : List String → Json → Option Nat) (hostOs : String) (levels : Nat) :
    (∀ resp : Response, (∃ back, responseFromJson variantOf hostOs levels
      (.object (encodeResponse resp)) = some back ∧ back.SameAs resp) ↔ resp.Fits levels) ∧
    (∀ resp, challengeFromJson (.object (encodeResponse resp)) = none) ∧
    (∀ challenge,
      responseFromJson variantOf hostOs levels (.object (encodeChallenge challenge)) = none) ∧
    ∀ v resp, responseFromJson variantOf hostOs levels v = some resp →
      resp.FitsWith Bounds.Numeric levels ∧
      (∀ vs, v = .array vs → vs.length ≤ responseKeys.length ∧
        responseFromJson variantOf hostOs levels (.object (responseKeys.zip vs)) = some resp) ∧
      ∀ entries, v = .object entries →
        (∀ k ∈ responseKeys, (entries.filter fun e => e.1 = k).length ≤ 1) ∧
        ∀ others all, (∀ e ∈ others, e.1 ∉ responseKeys) → all.Perm (entries ++ others) →
          responseFromJson variantOf hostOs levels (.object all) = some resp := by
  refine ⟨fun resp => ⟨?_, ?_⟩, decodeChallenge_encodeResponse,
    fun challenge => ?_, fun v resp h => ⟨?_, ?_, ?_⟩⟩
  · rintro ⟨back, hback, hsame⟩
    exact fits_of_back variantOf hostOs levels hback hsame
  · exact decodeResponse_encodeResponse variantOf hostOs levels
  · rw [responseFromJson_object, decodeResponse_encodeChallenge]
  · exact responseFields_fits variantOf hostOs levels ((structValue _).fits_of_dec h)
  · rintro vs rfl
    have harray := structValue_array h
    rwa [responseFields_keys] at harray
  · rintro entries rfl
    refine ⟨fun k hk => ?_, fun others all hothers hperm => ?_⟩
    · exact length_filter_le_of_valueAt ((responseFields variantOf hostOs levels).once h k hk)
    · exact (responseFields variantOf hostOs levels).dec_among h hothers hperm

/-- A greeting with a tree as an older host writes it: no `os` and no `auth`, defaults left out, a
node as an array, and a height out of range. -/
def greeting : List (String × Json) :=
  [("v", .nat 2), ("id", .string "1"), ("ok", .bool true),
    ("hello", .object [("protocol", .nat 2), ("app", .string "demo"),
      ("platform", .string "desktop"), ("ready", .bool true),
      ("deliveries", .array [.string "semantic"])]),
    ("tree", .object [("app", .string "demo"), ("platform", .string "desktop"),
      ("ready", .bool true), ("rev", .nat 3), ("nodes", .array [.object [("id", .string "main"),
        ("role", .string "window"), ("name", .string "Demo"), ("enabled", .bool true),
        ("bounds", .object [("x", .nat 0), ("y", .number (.float (-1 / 2))), ("w", .nat 800),
          ("h", .number (.float (10 ^ 39)))]),
        ("children", .array [.array [.string "save", .string "button", .string "Save"]])]])])]

/-- Its `hello` to a client on Linux. -/
def greetingHello : HelloInfo where
  protocol := 2
  app := "demo"
  platform := .desktop
  os := "linux"
  ready := true
  deliveries := [.semantic]
  auth := .none
  bundleId := none
  executable := none
  features := []

/-- Its nodes, with the ids above them. -/
def greetingRows : List (List String × NodeFields) :=
  [([], { id := "main", role := "window", name := "Demo", enabled := true,
          bounds := ⟨.finite 0, .finite (-1 / 2), .finite 800, .inf false⟩ }),
    (["main"], { id := "save", role := "button", name := "Save", enabled := false })]

/-- The greeting is read with a field more and in another order. -/
theorem response_json_newer : ∃ resp, responseFromJson (fun _ _ => none) "linux" 62
      (.object (("trace", .nat 7) :: greeting.reverse)) = some resp ∧
    resp.hello = some greetingHello ∧ resp.tree.map UiTree.rows = some greetingRows := by
  have hread : ((responseFromJson (fun _ _ => none) "linux" 62 (.object greeting)).map
      fun resp => (resp.hello, resp.tree.map UiTree.rows)) =
        some (some greetingHello, some greetingRows) := by
    decide +kernel
  obtain ⟨resp, hresp, hparts⟩ := Option.map_eq_some_iff.mp hread
  obtain ⟨hhello, htree⟩ := Prod.mk.inj hparts
  have hnewer := ((response_json (fun _ _ => none) "linux" 62).2.2.2 _ resp hresp).2.2 greeting rfl
  exact ⟨resp, hnewer.2 [("trace", .nat 7)] _ (by decide) (by decide +kernel), hhello, htree⟩

end GpuiAgent
