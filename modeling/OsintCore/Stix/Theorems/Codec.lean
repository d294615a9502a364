import OsintCore.Stix.Codec

namespace Stix

-- Each text, flag and time can be written and read again.

@[simp]
theorem valid_textField {s : String} : textField.valid s ↔ True :=
  .rfl

@[simp]
theorem valid_optTextField {s : Option String} : optTextField.valid s ↔ True :=
  .rfl

@[simp]
theorem valid_optBoolField {b : Option Bool} : optBoolField.valid b ↔ True :=
  .rfl

@[simp]
theorem valid_idField {id : StixId} : idField.valid id ↔ True :=
  .rfl

@[simp]
theorem valid_classField {c : IdentityClass} : classField.valid c ↔ c.Proper :=
  .rfl

@[simp]
theorem valid_common {time : TimeText} {c : CommonProperties} :
    (CommonProperties.record time).valid c ↔ True :=
  ⟨fun _ => trivial, fun _ => ⟨⟨trivial, trivial⟩, trivial⟩⟩

namespace StixObject

def extra : StixObject → Fields Json
  | identity v      => v.extra
  | threatActor v   => v.extra
  | malware v       => v.extra
  | vulnerability v => v.extra
  | indicator v     => v.extra
  | relationship v  => v.extra
  | domainName v    => v.extra
  | ipv4Addr v      => v.extra
  | url v           => v.extra
  | emailAddr v     => v.extra
  | custom v        => v.extra
  | unknown _       => ∅

def commonNames : List String :=
  ["spec_version", "created", "modified"]

-- The names which an object of this type uses for itself.
def reserved : StixObject → List String
  | identity _      => ["type", "id", "identity_class", "name", "description"] ++ commonNames
  | threatActor _
  | vulnerability _ => ["type", "id", "name", "description"] ++ commonNames
  | malware _       => ["type", "id", "name", "description", "is_family"] ++ commonNames
  | indicator _     => ["type", "id", "name", "pattern", "description"] ++ commonNames
  | relationship _  =>
    ["type", "id", "relationship_type", "source_ref", "target_ref", "description"] ++ commonNames
  | domainName _
  | ipv4Addr _
  | url _
  | emailAddr _     => ["type", "id", "value"] ++ commonNames
  | custom _        => ["type", "id"]
  | unknown _       => []

-- Those which may be left out.
def optional : StixObject → List String
  | identity _
  | threatActor _
  | vulnerability _
  | relationship _  => "description" :: commonNames
  | malware _       => ["description", "is_family"] ++ commonNames
  | indicator _     => ["name", "pattern", "description"] ++ commonNames
  | domainName _
  | ipv4Addr _
  | url _
  | emailAddr _     => commonNames
  | custom _
  | unknown _       => []

def knownTypes : List String := [
  "identity", "threat-actor", "malware", "vulnerability", "indicator", "relationship", "domain-name",
  "ipv4-addr", "url", "email-addr"]

-- No name is used twice, and a value which has a type of its own is not hidden behind a catch-all.
def Proper (v : StixObject) : Prop :=
  (∀ k ∈ v.reserved, v.extra.value k = none) ∧
  match v with
  | identity v => v.identityClass.Proper
  | custom v   => v.type ∉ knownTypes ∧ Text.startsWith v.type "x-"
  | unknown _  => v.typeName ∉ knownTypes ∧ ¬Text.startsWith v.typeName "x-"
  | _          => True

variable {time : TimeText}

-- The codec of one of the known types, whose values become objects by `wrap`.
structure IsKnown {α : Type} (time : TimeText) (typeName : String)
    (c : TaggedCodec Json.isNull "type" α) (wrap : α → StixObject) : Prop where
  tag      : c.tag = .string typeName
  dispatch : ∀ value, dispatchObject time typeName value = (c.decode value.fields).map wrap
  encode   : ∀ a, encode time (wrap a) = .ofFields (c.encode a)
  valid    : ∀ {a}, c.Valid a ↔ (wrap a).Proper
  optional : ∀ a, c.record.optional = (wrap a).optional

theorem isKnown_identity : IsKnown time "identity" (Identity.codec time) identity where
  tag        := rfl
  dispatch _ := rfl
  encode _   := rfl
  valid      := ⟨fun ⟨h, hn⟩ => ⟨hn, h.left.left.left.right⟩,
    fun ⟨hn, h⟩ => ⟨⟨⟨⟨⟨trivial, h⟩, trivial⟩, trivial⟩, valid_common.mpr trivial⟩, hn⟩⟩
  optional _ := rfl

theorem isKnown_threatActor : IsKnown time "threat-actor" (ThreatActor.codec time) threatActor where
  tag        := rfl
  dispatch _ := rfl
  encode _   := rfl
  valid      := ⟨fun ⟨_, hn⟩ => ⟨hn, trivial⟩, fun ⟨hn, _⟩ => ⟨by simp [ThreatActor.codec], hn⟩⟩
  optional _ := rfl

theorem isKnown_malware : IsKnown time "malware" (Malware.codec time) malware where
  tag        := rfl
  dispatch _ := rfl
  encode _   := rfl
  valid      := ⟨fun ⟨_, hn⟩ => ⟨hn, trivial⟩, fun ⟨hn, _⟩ => ⟨by simp [Malware.codec], hn⟩⟩
  optional _ := rfl

theorem isKnown_vulnerability : IsKnown time "vulnerability" (Vulnerability.codec time) vulnerability where
  tag        := rfl
  dispatch _ := rfl
  encode _   := rfl
  valid      := ⟨fun ⟨_, hn⟩ => ⟨hn, trivial⟩,
    fun ⟨hn, _⟩ => ⟨by simp [Vulnerability.codec], hn⟩⟩
  optional _ := rfl

theorem isKnown_indicator : IsKnown time "indicator" (Indicator.codec time) indicator where
  tag        := rfl
  dispatch _ := rfl
  encode _   := rfl
  valid      := ⟨fun ⟨_, hn⟩ => ⟨hn, trivial⟩,
    fun ⟨hn, _⟩ => ⟨by simp [Indicator.codec], hn⟩⟩
  optional _ := rfl

theorem isKnown_relationship : IsKnown time "relationship" (Relationship.codec time) relationship where
  tag        := rfl
  dispatch _ := rfl
  encode _   := rfl
  valid      := ⟨fun ⟨_, hn⟩ => ⟨hn, trivial⟩,
    fun ⟨hn, _⟩ => ⟨by simp [Relationship.codec], hn⟩⟩
  optional _ := rfl

theorem isKnown_domainName : IsKnown time "domain-name" (DomainName.codec time) domainName where
  tag        := rfl
  dispatch _ := rfl
  encode _   := rfl
  valid      := ⟨fun ⟨_, hn⟩ => ⟨hn, trivial⟩,
    fun ⟨hn, _⟩ => ⟨by simp [DomainName.codec, observable], hn⟩⟩
  optional _ := rfl

theorem isKnown_ipv4Addr : IsKnown time "ipv4-addr" (Ipv4Addr.codec time) ipv4Addr where
  tag        := rfl
  dispatch _ := rfl
  encode _   := rfl
  valid      := ⟨fun ⟨_, hn⟩ => ⟨hn, trivial⟩,
    fun ⟨hn, _⟩ => ⟨by simp [Ipv4Addr.codec, observable], hn⟩⟩
  optional _ := rfl

theorem isKnown_url : IsKnown time "url" (Url.codec time) url where
  tag        := rfl
  dispatch _ := rfl
  encode _   := rfl
  valid      := ⟨fun ⟨_, hn⟩ => ⟨hn, trivial⟩,
    fun ⟨hn, _⟩ => ⟨by simp [Url.codec, observable], hn⟩⟩
  optional _ := rfl

theorem isKnown_emailAddr : IsKnown time "email-addr" (EmailAddr.codec time) emailAddr where
  tag        := rfl
  dispatch _ := rfl
  encode _   := rfl
  valid      := ⟨fun ⟨_, hn⟩ => ⟨hn, trivial⟩,
    fun ⟨hn, _⟩ => ⟨by simp [EmailAddr.codec, observable], hn⟩⟩
  optional _ := rfl

theorem dispatchObject_other {typeName : String} {value : Json} (h : typeName ∉ knownTypes) :
    dispatchObject time typeName value =
      if Text.startsWith typeName "x-" then CustomObject.decode value.fields |>.map custom
      else some (unknown value) := by
  unfold dispatchObject
  split
  all_goals first | exact absurd (by decide) h | rfl

namespace IsKnown

variable {α : Type} {typeName : String} {c : TaggedCodec Json.isNull "type" α} {wrap : α → StixObject}
  {a : α} {value : Json} {obj : StixObject}

-- A value of a known type is read again if none of its names is used twice.
theorem decode_encode (h : IsKnown time typeName c wrap) (hp : (wrap a).Proper) :
    StixObject.decode time (StixObject.encode time (wrap a)) = some (wrap a) := by
  have hv := h.valid.mpr hp
  have ht : (Json.ofFields (c.encode a)).get "type" = some (.string typeName) := by
    rw [Json.get_eq_value, Json.fields_ofFields, TaggedCodec.value_encode hv, if_pos rfl, h.tag]
  rw [h.encode, StixObject.decode, ht]
  simp only [Option.bind_eq_bind, Option.bind_some, Json.asStr, Option.getD_some, h.dispatch,
    Json.fields_ofFields, TaggedCodec.decode_encode hv, Option.map_some]

theorem proper (h : IsKnown time typeName c wrap) (hd : dispatchObject time typeName value = some obj) :
    obj.Proper := by
  rw [h.dispatch] at hd
  have ⟨a, ha, hd⟩ := Option.map_eq_some_iff.mp hd
  subst hd
  exact h.valid.mp <| TaggedCodec.decode_valid ha

theorem kept (h : IsKnown time typeName c wrap) (hd : dispatchObject time typeName value = some obj)
    {k : String} {v : Json} (hv : value.fields.value k = some v) :
    (StixObject.encode time obj).fields.value k = none ↔ k ∈ obj.optional ∧ v.isNull := by
  rw [h.dispatch] at hd
  have ⟨a, ha, hd⟩ := Option.map_eq_some_iff.mp hd
  subst hd
  rw [h.encode, Json.fields_ofFields, TaggedCodec.kept ha hv, h.optional]

end IsKnown

-- Each known type has a codec, and each object is of a known type or one of a catch-all.

theorem exists_isKnown (time : TimeText) {typeName : String} (h : typeName ∈ knownTypes) :
    ∃ (α : Type) (c : TaggedCodec Json.isNull "type" α) (wrap : α → StixObject),
      IsKnown time typeName c wrap := by
  simp only [knownTypes, List.mem_cons, List.not_mem_nil, or_false] at h
  rcases h with rfl | rfl | rfl | rfl | rfl | rfl | rfl | rfl | rfl | rfl
  exacts [⟨_, _, _, isKnown_identity⟩, ⟨_, _, _, isKnown_threatActor⟩, ⟨_, _, _, isKnown_malware⟩,
    ⟨_, _, _, isKnown_vulnerability⟩, ⟨_, _, _, isKnown_indicator⟩, ⟨_, _, _, isKnown_relationship⟩,
    ⟨_, _, _, isKnown_domainName⟩, ⟨_, _, _, isKnown_ipv4Addr⟩, ⟨_, _, _, isKnown_url⟩,
    ⟨_, _, _, isKnown_emailAddr⟩]

theorem known_or_custom_or_unknown (time : TimeText) (obj : StixObject) :
    (∃ (α : Type) (typeName : String) (c : TaggedCodec Json.isNull "type" α) (wrap : α → StixObject),
      IsKnown time typeName c wrap ∧ ∃ a, obj = wrap a) ∨
    (∃ v, obj = custom v) ∨ ∃ value, obj = unknown value := by
  cases obj
  case identity v      => exact .inl ⟨_, _, _, _, isKnown_identity, v, rfl⟩
  case threatActor v   => exact .inl ⟨_, _, _, _, isKnown_threatActor, v, rfl⟩
  case malware v       => exact .inl ⟨_, _, _, _, isKnown_malware, v, rfl⟩
  case vulnerability v => exact .inl ⟨_, _, _, _, isKnown_vulnerability, v, rfl⟩
  case indicator v     => exact .inl ⟨_, _, _, _, isKnown_indicator, v, rfl⟩
  case relationship v  => exact .inl ⟨_, _, _, _, isKnown_relationship, v, rfl⟩
  case domainName v    => exact .inl ⟨_, _, _, _, isKnown_domainName, v, rfl⟩
  case ipv4Addr v      => exact .inl ⟨_, _, _, _, isKnown_ipv4Addr, v, rfl⟩
  case url v           => exact .inl ⟨_, _, _, _, isKnown_url, v, rfl⟩
  case emailAddr v     => exact .inl ⟨_, _, _, _, isKnown_emailAddr, v, rfl⟩
  case custom v        => exact .inr <| .inl ⟨v, rfl⟩
  case unknown value   => exact .inr <| .inr ⟨value, rfl⟩

end StixObject

namespace CustomObject

variable {m : Fields Json} {v : CustomObject}

theorem decode_type (h : decode m = some v) : m.value "type" = some (.string v.type) := by
  have ⟨p, hp, h⟩ := Option.map_eq_some_iff.mp h
  have ⟨q, hq, hp⟩ := Option.map_eq_some_iff.mp hp
  have ⟨type, ht, hq⟩ := Option.bind_eq_some_iff.mp hq
  have ⟨id, _, hq⟩ := Option.map_eq_some_iff.mp hq
  subst hq hp h
  have ⟨j, hj, ht⟩ := Option.bind_eq_some_iff.mp ht
  rw [hj, Json.asStr_eq_some.mp ht]

theorem decode_extra (h : decode m = some v) : ∀ k ∈ ["type", "id"], v.extra.value k = none := by
  have ⟨p, hp, h⟩ := Option.map_eq_some_iff.mp h
  subst h
  exact (RecordCodec.decodeFlat_valid hp).right

theorem decode_encode (h : ∀ k ∈ ["type", "id"], v.extra.value k = none) :
    decode v.encode = some v := by
  have hf : record.ValidFlat ((v.type, v.id), v.extra) := ⟨⟨trivial, trivial⟩, h⟩
  have hd : record.decodeFlat v.encode = some ((v.type, v.id), v.extra) :=
    RecordCodec.decodeFlat_encodeFlat hf fun _ => rfl
  rw [decode, hd]
  rfl

-- Nothing is lost.
theorem decode_kept (h : decode m = some v) {k : String} {j : Json} (hv : m.value k = some j) :
    v.encode.value k ≠ none := by
  have ⟨p, hp, h⟩ := Option.map_eq_some_iff.mp h
  subst h
  intro hn
  have ho := (RecordCodec.kept_flat hp hv).mp hn |>.left
  cases ho

end CustomObject

namespace StixObject

-- What has been read is proper.
theorem decode_proper {value : Json} {obj : StixObject} (h : decode time value = some obj) :
    obj.Proper := by
  unfold decode at h
  generalize ht : (value.get "type" >>= Json.asStr).getD "" = typeName at h
  by_cases hk : typeName ∈ knownTypes
  case pos =>
    have ⟨_, _, _, hi⟩ := exists_isKnown time hk
    exact hi.proper h
  case neg =>
    simp only [dispatchObject_other hk] at h
    split_ifs at h with hx
    case pos =>
      have ⟨v, hv, h⟩ := Option.map_eq_some_iff.mp h
      subst h
      have hy := CustomObject.decode_type hv
      rw [← Json.get_eq_value] at hy
      obtain rfl : v.type = typeName := by simpa [hy, Json.asStr] using ht
      exact ⟨CustomObject.decode_extra hv, hk, hx⟩
    case neg =>
      cases h
      have ht : (unknown value).typeName = typeName := ht
      exact ⟨fun _ h => absurd h List.not_mem_nil, ht ▸ hk, ht ▸ hx⟩

-- A proper object is read as what has been written.
theorem decode_encode {obj : StixObject} (h : obj.Proper) :
    decode time (encode time obj) = some obj := by
  obtain ⟨_, _, _, _, hi, a, rfl⟩ | ⟨v, rfl⟩ | ⟨value, rfl⟩ := known_or_custom_or_unknown time obj
  case inl => exact hi.decode_encode h
  case inr.inl =>
    have hd := CustomObject.decode_encode h.left
    have ht := CustomObject.decode_type hd
    rw [encode, decode, Json.get_eq_value, Json.fields_ofFields, ht]
    simp only [Option.bind_eq_bind, Option.bind_some, Json.asStr, Option.getD_some,
      dispatchObject_other h.right.left, if_pos h.right.right, Json.fields_ofFields, hd,
      Option.map_some]
  case inr.inr =>
    have hk : (value.get "type" >>= Json.asStr).getD "" ∉ knownTypes := h.right.left
    rw [encode, decode, dispatchObject_other hk]
    exact if_neg h.right.right

-- Nothing but null is lost.
theorem decode_kept {value : Json} {obj : StixObject} (h : decode time value = some obj) {k : String}
    {v : Json} (hv : value.get k = some v) :
    (encode time obj).get k = none ↔ k ∈ obj.optional ∧ v.isNull := by
  unfold decode at h
  generalize (value.get "type" >>= Json.asStr).getD "" = typeName at h
  rw [Json.get_eq_value] at hv ⊢
  by_cases hk : typeName ∈ knownTypes
  case pos =>
    have ⟨_, _, _, hi⟩ := exists_isKnown time hk
    exact hi.kept h hv
  case neg =>
    simp only [dispatchObject_other hk] at h
    split_ifs at h with hx
    case pos =>
      have ⟨o, ho, h⟩ := Option.map_eq_some_iff.mp h
      subst h
      have hn := CustomObject.decode_kept ho hv
      simp [encode, optional, hn]
    case neg =>
      cases h
      simp [encode, optional, hv]

-- The proper objects are those which survive being written and read. Every object which has been
-- read is one of them, and all fields of what it has been read from are written again, except for
-- optional fields without a value.
theorem round_trip (time : TimeText) :
    (∀ obj, decode time (encode time obj) = some obj ↔ obj.Proper) ∧
    ∀ value obj, decode time value = some obj →
      decode time (encode time obj) = some obj ∧
      ∀ k v, value.get k = some v →
        ((encode time obj).get k = none ↔ k ∈ obj.optional ∧ v.isNull) :=
  ⟨fun _ => ⟨decode_proper, decode_encode⟩,
    fun _ _ h => ⟨decode_encode (decode_proper h), fun _ _ => decode_kept h⟩⟩

def individual (identityClass : IdentityClass) (extra : Fields Json) : StixObject :=
  .identity {
    id            := ⟨"identity--00000000-0000-0000-0000-000000000001", by decide +kernel⟩
    identityClass := identityClass
    name          := "alice"
    description   := none
    common        := { specVersion := none, created := none, modified := none }
    extra         := extra
  }

def undescribed : Json :=
  .object [
    ("type", .string "identity"), ("id", .string "identity--00000000-0000-0000-0000-000000000001"),
    ("identity_class", .string "individual"), ("name", .string "alice"), ("description", .null)]

-- Another class cannot have the name of a known one, and the extra fields cannot have the name of
-- a field of the object. A description without a value is not written again.
theorem not_round_trip :
    decode .epoch (encode .epoch (individual (.other "individual") ∅)) ≠
      some (individual (.other "individual") ∅) ∧
    decode .epoch (encode .epoch (individual .individual (.single "name" (.string "bob")))) ≠
      some (individual .individual (.single "name" (.string "bob"))) ∧
    undescribed.get "description" = some .null ∧
      ∃ obj, decode .epoch undescribed = some obj ∧
        (encode .epoch obj).get "description" = none := by
  refine ⟨fun h => ?_, fun h => ?_, rfl, ?_⟩
  case refine_1 =>
    have hc : (IdentityClass.other "individual").Proper := (decode_proper h).right
    exact absurd hc (by decide)
  case refine_2 => exact absurd ((decode_proper h).left "name" (by decide)) (by decide +kernel)
  case refine_3 =>
    have h : (decode .epoch undescribed).map (fun obj => ((encode .epoch obj).get "description").isNone) =
        some true := by decide +kernel
    have ⟨obj, hd, hn⟩ := Option.map_eq_some_iff.mp h
    exact ⟨obj, hd, Option.isNone_iff_eq_none.mp hn⟩

end StixObject

end Stix
