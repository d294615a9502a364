import OsintCore.Stix.Theorems.Codec
import OsintCore.Stix.Validate

namespace Stix

variable {display : Json → String} {time : TimeText} {value : Option Json} {index : Nat}

theorem asStr_any {j : Json} {p : String → Prop} [DecidablePred p] (h : j.asStr.any (p ·)) :
    ∃ s, j = .string s ∧ p s := by
  cases j
  case string s => exact ⟨s, rfl, by simpa [Json.asStr] using h⟩
  all_goals cases h

-- The object has a type and an id.
structure WellFormed (item : Json) : Prop where
  type : ∃ t, item.get "type" = some (.string t) ∧ t ≠ ""
  id   : ∃ id : StixId, item.get "id" = some (.string id.text)

theorem checkObjectType_ok (h : checkObjectType display index value = .ok ()) :
    ∃ t, value = some (.string t) ∧ t ≠ "" := by
  unfold checkObjectType at h
  split at h
  case h_1       => cases h
  case h_2 other =>
    split_ifs at h with ht
    have ⟨t, hj, ht⟩ := asStr_any ht
    exact ⟨t, hj ▸ rfl, ht⟩

theorem checkObjectId_ok (h : checkObjectId display index value = .ok ()) :
    ∃ id : StixId, value = some (.string id.text) := by
  unfold checkObjectId at h
  split at h
  case h_2 id => exact ⟨⟨id, Except.mapError_eq_ok.mp h⟩, rfl⟩
  all_goals cases h

theorem validateObject_ok {item : Json} (h : validateObject display index item = .ok ()) :
    WellFormed item := by
  unfold validateObject at h
  split at h
  case h_1        => cases h
  case h_2 obj ho =>
    have ⟨_, ht, hi⟩ := Except.bind_eq_ok.mp h
    exact ⟨by simpa [Json.get, ho] using checkObjectType_ok ht,
      by simpa [Json.get, ho] using checkObjectId_ok hi⟩

theorem checkBundleType_ok (h : checkBundleType display value = .ok ()) :
    value = some (.string "bundle") := by
  unfold checkBundleType at h
  split at h
  case h_1       => cases h
  case h_2 other =>
    split_ifs at h with ht
    have ⟨_, hj, ht⟩ := asStr_any ht
    rw [hj, ht]

theorem StixId.text_of_parse {raw : String} {id : StixId} (h : parse raw = .ok id) :
    id.text = raw := by
  unfold parse at h
  split at h
  case h_1 => exact (congrArg StixId.text (Except.ok.inj h)).symm
  case h_2 => cases h

theorem checkBundleId_ok (h : checkBundleId display value = .ok ()) :
    ∃ id : StixId, value = some (.string id.text) ∧ id.typePrefix = "bundle" := by
  unfold checkBundleId at h
  split at h
  case h_2 id =>
    have ⟨parsed, hp, h⟩ := Except.bind_eq_ok.mp h
    split_ifs at h with ht
    exact ⟨parsed, by rw [StixId.text_of_parse hp], ht⟩
  all_goals cases h

theorem checkObjects_ok {items : List Json} (h : checkObjects display value = .ok items) :
    value = some (.array items) := by
  unfold checkObjects at h
  split at h
  case h_2 => rw [Except.ok.inj h]
  all_goals cases h

-- What the validator accepts.
structure Accepted (raw : Json) (maxObjects : Nat) (items : List Json) : Prop where
  type    : raw.get "type" = some (.string "bundle")
  id      : ∃ id : StixId, raw.get "id" = some (.string id.text) ∧ id.typePrefix = "bundle"
  objects : raw.get "objects" = some (.array items)
  length  : items.length ≤ maxObjects
  items   : ∀ item ∈ items, WellFormed item

theorem validateBundle_ok {raw : Json} {maxObjects : Nat}
    (h : validateBundle display raw maxObjects = .ok ()) : ∃ items, Accepted raw maxObjects items := by
  unfold validateBundle at h
  split at h
  case h_1        => cases h
  case h_2 obj ho =>
    have ⟨_, ht, h⟩ := Except.bind_eq_ok.mp h
    have ⟨_, hi, h⟩ := Except.bind_eq_ok.mp h
    have ⟨items, hs, h⟩ := Except.bind_eq_ok.mp h
    split_ifs at h with hl
    case neg =>
      refine ⟨items, ?_, ?_, ?_, by omega, fun item hm => ?_⟩
      case refine_1 => simpa [Json.get, ho] using checkBundleType_ok ht
      case refine_2 => simpa [Json.get, ho] using checkBundleId_ok hi
      case refine_3 => simpa [Json.get, ho] using checkObjects_ok hs
      case refine_4 =>
        have ⟨index, hx⟩ := List.mem_iff_getElem?.mp hm
        exact validateObject_ok <| Except.of_forM h (item, index) <|
          List.mem_zipIdx_iff_getElem?.mpr hx

-- What a value of a field has to be.
inductive Shape
  | id | text | identityClass | flag | time

def Shape.Accepts (time : TimeText) : Shape → Json → Prop
  | .id, v            => ∃ id : StixId, v = .string id.text
  | .text, v          => ∃ s, v = .string s
  | .identityClass, v =>
    (∃ s, v = .string s) ∨ ∃ p ∈ IdentityClass.named, v.fields.rows = [(p.fst, .null)]
  | .flag, v          => ∃ b, v = .bool b
  | .time, v          => ∃ s t, v = .string s ∧ time.parse s = some t

-- The fields which an object of a type must have.
def required : String → List (String × Shape)
  | "identity"      => [("id", .id), ("identity_class", .identityClass), ("name", .text)]
  | "threat-actor"
  | "malware"
  | "vulnerability" => [("id", .id), ("name", .text)]
  | "indicator"     => [("id", .id)]
  | "relationship"  =>
    [("id", .id), ("relationship_type", .text), ("source_ref", .id), ("target_ref", .id)]
  | "domain-name"
  | "ipv4-addr"
  | "url"
  | "email-addr"    => [("id", .id), ("value", .text)]
  | other           => if Text.startsWith other "x-" then [("type", .text), ("id", .id)] else []

def commonShapes : List (String × Shape) :=
  [("spec_version", .text), ("created", .time), ("modified", .time)]

-- The fields which it may have.
def allowed : String → List (String × Shape)
  | "identity"
  | "threat-actor"
  | "vulnerability"
  | "relationship"  => ("description", .text) :: commonShapes
  | "malware"       => [("description", .text), ("is_family", .flag)] ++ commonShapes
  | "indicator"     => [("name", .text), ("pattern", .text), ("description", .text)] ++ commonShapes
  | "domain-name"
  | "ipv4-addr"
  | "url"
  | "email-addr"    => commonShapes
  | _               => []

-- The fields of the object have the types which the object's type asks for.
def Typed (time : TimeText) (item : Json) : Prop :=
  let typeName := (item.get "type" >>= Json.asStr).getD ""
  (∀ p ∈ required typeName, ∃ v, item.get p.fst = some v ∧ p.snd.Accepts time v) ∧
  ∀ p ∈ allowed typeName, ∀ v, item.get p.fst = some v → ¬v.isNull → p.snd.Accepts time v

section Fields

variable (time) {v : Json}

theorem isSome_asStr : v.asStr.isSome ↔ Shape.text.Accepts time v := by
  cases v <;> simp [Json.asStr, Shape.Accepts]

theorem isSome_asBool : v.asBool.isSome ↔ Shape.flag.Accepts time v := by
  cases v <;> simp [Json.asBool, Shape.Accepts]

theorem isSome_parseTime : (v.asStr >>= time.parse).isSome ↔ Shape.time.Accepts time v := by
  cases v <;> simp [Json.asStr, Shape.Accepts, Option.isSome_iff_exists]

theorem isSome_decodeId : (StixId.decode v).isSome ↔ Shape.id.Accepts time v := by
  constructor
  case mp =>
    intro h
    have ⟨id, h⟩ := Option.isSome_iff_exists.mp h
    have ⟨raw, hr, h⟩ := Option.bind_eq_some_iff.mp h
    have h : StixId.parse raw = .ok id := by
      cases hp : StixId.parse raw <;> simp_all [Except.toOption]
    exact ⟨id, by rw [StixId.text_of_parse h, Json.asStr_eq_some.mp hr]⟩
  case mpr =>
    rintro ⟨id, rfl⟩
    simp [StixId.decode, Json.asStr, Except.toOption]

theorem isSome_decodeClass : (IdentityClass.decode v).isSome ↔ Shape.identityClass.Accepts time v := by
  have hl (name : String) : (IdentityClass.named.lookup name).isSome ↔
      ∃ p ∈ IdentityClass.named, name = p.fst := by
    simp only [List.lookup_isSome_iff, beq_iff_eq]
  unfold IdentityClass.decode
  split
  case h_1 s    => simp [Shape.Accepts]
  case h_2 hs   =>
    have hs : ¬∃ s, v = .string s := not_exists.mpr hs
    simp only [Shape.Accepts, hs, false_or]
    split
    case h_1 name hr => simp [hr, hl]
    case h_2 hr      =>
      simp only [Option.isSome_none, Bool.false_eq_true, false_iff]
      rintro ⟨p, _, h⟩
      exact hr p.fst h

theorem isSome_textField :
    (textField.decode value).isSome ↔ ∃ v, value = some v ∧ Shape.text.Accepts time v :=
  (FieldCodec.isSome_required rfl).trans <| exists_congr fun _ => and_congr_right fun _ => isSome_asStr time

theorem isSome_idField :
    (idField.decode value).isSome ↔ ∃ v, value = some v ∧ Shape.id.Accepts time v :=
  (FieldCodec.isSome_required rfl).trans <| exists_congr fun _ => and_congr_right fun _ => isSome_decodeId time

theorem isSome_classField :
    (classField.decode value).isSome ↔ ∃ v, value = some v ∧ Shape.identityClass.Accepts time v :=
  (FieldCodec.isSome_required rfl).trans <| exists_congr fun _ => and_congr_right fun _ =>
    isSome_decodeClass time

theorem isSome_optTextField : (optTextField.decode value).isSome ↔
    ∀ v, value = some v → ¬v.isNull → Shape.text.Accepts time v :=
  (FieldCodec.isSome_optionalOf rfl).trans <| forall_congr' fun _ => forall_congr' fun _ =>
    forall_congr' fun _ => isSome_asStr time

theorem isSome_optBoolField : (optBoolField.decode value).isSome ↔
    ∀ v, value = some v → ¬v.isNull → Shape.flag.Accepts time v :=
  (FieldCodec.isSome_optionalOf rfl).trans <| forall_congr' fun _ => forall_congr' fun _ =>
    forall_congr' fun _ => isSome_asBool time

theorem isSome_optTimeField : ((optTimeField time).decode value).isSome ↔
    ∀ v, value = some v → ¬v.isNull → Shape.time.Accepts time v :=
  (FieldCodec.isSome_optionalOf rfl).trans <| forall_congr' fun _ => forall_congr' fun _ =>
    forall_congr' fun _ => isSome_parseTime time

end Fields

theorem isSome_common {m : Fields Json} : ((CommonProperties.record time).decode m).isSome ↔
    ∀ p ∈ commonShapes, ∀ v, m.value p.fst = some v → ¬v.isNull → p.snd.Accepts time v := by
  simp [CommonProperties.record, commonShapes, isSome_optTextField time, isSome_optTimeField time]
  tauto

theorem required_other {typeName : String} (h : typeName ∉ StixObject.knownTypes) :
    required typeName =
      if Text.startsWith typeName "x-" then [("type", .text), ("id", .id)] else [] := by
  unfold required
  split
  all_goals first | exact absurd (by decide) h | rfl

theorem allowed_other {typeName : String} (h : typeName ∉ StixObject.knownTypes) :
    allowed typeName = [] := by
  unfold allowed
  split
  all_goals first | exact absurd (by decide) h | rfl

-- An object is read if and only if it has the fields of its type.
theorem isSome_decode {item : Json} : (StixObject.decode time item).isSome ↔ Typed time item := by
  unfold StixObject.decode Typed
  generalize (item.get "type" >>= Json.asStr).getD "" = typeName
  simp only [Json.get_eq_value]
  by_cases hk : typeName ∈ StixObject.knownTypes
  case pos =>
    simp only [StixObject.knownTypes, List.mem_cons, List.not_mem_nil, or_false] at hk
    rcases hk with rfl | rfl | rfl | rfl | rfl | rfl | rfl | rfl | rfl | rfl
    all_goals
      simp [StixObject.dispatchObject, required, allowed, TaggedCodec.isSome_decode, isSome_common,
        Identity.codec, ThreatActor.codec, Malware.codec, Vulnerability.codec, Indicator.codec,
        Relationship.codec, DomainName.codec, Ipv4Addr.codec, Url.codec, EmailAddr.codec, observable,
        isSome_idField time, isSome_classField time, isSome_textField time, isSome_optTextField time,
        isSome_optBoolField time]
    all_goals tauto
  case neg =>
    rw [StixObject.dispatchObject_other hk, required_other hk, allowed_other hk]
    split_ifs with hx
    case pos =>
      simp [CustomObject.decode, RecordCodec.decodeFlat, CustomObject.record, isSome_idField time,
        isSome_textField time]
    case neg => simp

theorem decode_idField {id : StixId} (h : idField.decode value = some id) :
    value = some (.string id.text) := by
  have ⟨v, hv, h⟩ := Option.bind_eq_some_iff.mp h
  have ⟨raw, hr, h⟩ := Option.bind_eq_some_iff.mp h
  have h : StixId.parse raw = .ok id := by
    cases hp : StixId.parse raw <;> simp_all [Except.toOption]
  rw [hv, Json.asStr_eq_some.mp hr, StixId.text_of_parse h]

-- A relationship with the ids which the object has for it and for its ends.
def ReadsRelationship (item : Json) (obj : StixObject) : Prop :=
  ∃ r, obj = .relationship r ∧
    item.get "id" = some (.string r.id.text) ∧
    item.get "source_ref" = some (.string r.sourceRef.text) ∧
    item.get "target_ref" = some (.string r.targetRef.text)

theorem decode_relationship {item : Json} {obj : StixObject}
    (ht : item.get "type" = some (.string "relationship"))
    (h : StixObject.decode time item = some obj) : ReadsRelationship item obj := by
  have h : ((Relationship.codec time).decode item.fields).map .relationship = some obj := by
    rw [← h, StixObject.decode, ht]
    rfl
  obtain ⟨r, hr, h⟩ := Option.map_eq_some_iff.mp h
  have hr := TaggedCodec.record_decode hr
  simp only [Relationship.codec, RecordCodec.decode_both] at hr
  obtain ⟨⟨⟨⟨⟨hi, _⟩, hs⟩, ht⟩, _⟩, _⟩ := hr
  refine ⟨r, h.symm, ?_⟩
  simp only [Json.get_eq_value]
  exact ⟨decode_idField hi, decode_idField hs, decode_idField ht⟩

-- What has been accepted is read if and only if each of the objects is.
theorem decode_bundle (time : TimeText) {raw : Json} {maxObjects : Nat} {items : List Json}
    (h : Accepted raw maxObjects items) : ∃ id, StixBundle.decode time raw =
      (items.mapM (StixObject.decode time)).map fun objects => ⟨"bundle", id, objects⟩ := by
  have ⟨id, hi, _⟩ := h.id
  refine ⟨id, ?_⟩
  cases raw
  case object l =>
    have ht : l.lookup "type" = some (.string "bundle") := h.type
    have ho : l.lookup "objects" = some (.array items) := h.objects
    have hi : l.lookup "id" = some (.string id.text) := hi
    simp [StixBundle.decode, Json.asStruct, Json.decodeField, ht, ho, hi, Json.asStr, StixId.decode,
      Except.toOption, Json.decodeList, Json.asArray]
    cases items.mapM (StixObject.decode time) <;> rfl
  all_goals cases hi

-- The validator looks at the type and the id of an object only. What it accepts is read if and only
-- if each object has the fields of its type, and then relationships are read as such.
theorem validateBundle_decode (display : Json → String) (time : TimeText) (raw : Json)
    (maxObjects : Nat) (h : validateBundle display raw maxObjects = .ok ()) :
    ∃ items, raw.get "objects" = some (.array items) ∧
      ((StixBundle.decode time raw).isSome ↔ ∀ item ∈ items, Typed time item) ∧
      ∀ bundle, StixBundle.decode time raw = some bundle →
        List.Forall₂ (fun item obj => item.get "type" = some (.string "relationship") →
          ReadsRelationship item obj) items bundle.objects := by
  have ⟨items, ha⟩ := validateBundle_ok h
  have ⟨id, hd⟩ := decode_bundle time ha
  refine ⟨items, ha.objects, ?_, fun bundle hb => ?_⟩
  case refine_1 => simp [hd, Option.isSome_mapM, isSome_decode]
  case refine_2 =>
    rw [hd] at hb
    have ⟨objects, ho, hb⟩ := Option.map_eq_some_iff.mp hb
    subst hb
    exact (Option.mapM_eq_some.mp ho).imp fun _ _ h ht => decode_relationship ht h

def bundleOf (objects : List Json) : Json :=
  .object [
    ("type", .string "bundle"), ("id", .string "bundle--00000000-0000-0000-0000-000000000001"),
    ("objects", .array objects)]

def related : Json :=
  .object [
    ("type", .string "relationship"),
    ("id", .string "relationship--00000000-0000-0000-0000-000000000001"),
    ("relationship_type", .string "uses"),
    ("source_ref", .string "malware--00000000-0000-0000-0000-000000000002"),
    ("target_ref", .string "url--00000000-0000-0000-0000-000000000003")]

def user : Json :=
  .object [
    ("type", .string "malware"),
    ("id", .string "malware--00000000-0000-0000-0000-000000000002"),
    ("name", .string "Emotet"), ("x_seen", .string "often")]

theorem validateBundle_decode_related :
    ∃ bundle, StixBundle.decode .epoch (bundleOf [user, related]) = some bundle ∧
      (∀ item ∈ [user, related], Typed .epoch item) ∧
      ∃ malware obj, bundle.objects = [malware, obj] ∧ ReadsRelationship related obj := by
  have hs : (StixBundle.decode .epoch (bundleOf [user, related])).isSome := by decide +kernel
  obtain ⟨bundle, hb⟩ := Option.isSome_iff_exists.mp hs
  obtain ⟨items, hi, ht, hr⟩ := validateBundle_decode (fun _ => "") .epoch
    (bundleOf [user, related]) 2 (by decide +kernel)
  obtain rfl : [user, related] = items := by
    simpa [bundleOf, Json.get, Json.asObject, List.lookup] using hi
  obtain ⟨malware, _, _, hl, he⟩ := List.forall₂_cons_left_iff.mp (hr bundle hb)
  obtain ⟨obj, _, ho, hn, rfl⟩ := List.forall₂_cons_left_iff.mp hl
  cases List.forall₂_nil_left_iff.mp hn
  exact ⟨bundle, hb, ht.mp (hb ▸ rfl), malware, obj, he, ho rfl⟩

-- The name is missing.
theorem not_validateBundle_decode :
    let raw := bundleOf [.object [
      ("type", .string "identity"), ("id", .string "identity--00000000-0000-0000-0000-000000000002"),
      ("identity_class", .string "individual")]]
    validateBundle (fun _ => "") raw 1 = .ok () ∧ StixBundle.decode .epoch raw = none := by
  have hs (b : Option StixBundle) (h : b.isSome = false) : b = none := by simpa using h
  exact ⟨by decide +kernel, hs _ (by decide +kernel)⟩

end Stix
