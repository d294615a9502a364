import OsintCore.Api.Theorems.Pagination
import OsintCore.Objects.Theorems.Text
import OsintCore.Stix.Mapping
import OsintCore.Stix.Theorems.Codec

namespace Stix

section StixId

theorem splitOnce_cons {c : Char} {l : List Char} (h : ∀ l', c = '-' → l ≠ '-' :: l') :
    splitOnce (c :: l) = (splitOnce l).map fun (front, back) => (c :: front, back) := by
  rw [splitOnce]
  exact fun l' hc hl => h l' hc hl

theorem splitOnce_append {l back : List Char} (h : splitOnce (l ++ ['-']) = none) :
    splitOnce (l ++ '-' :: '-' :: back) = some (l, back) := by
  induction l
  case nil => rfl
  case cons c l hi =>
    have hn : ∀ l', c = '-' → l ++ ['-'] ≠ '-' :: l' := by
      rintro l' rfl hl
      rw [List.cons_append, hl] at h
      cases h
    have hn' : ∀ l', c = '-' → l ++ '-' :: '-' :: back ≠ '-' :: l' := by
      intro l' hc hl
      cases l
      case nil      => exact hn [] hc rfl
      case cons d l =>
        obtain rfl : d = '-' := (List.cons.inj hl).left
        exact hn _ hc rfl
    rw [List.cons_append, splitOnce_cons hn, Option.map_eq_none_iff] at h
    rw [List.cons_append, splitOnce_cons hn', hi h, Option.map_some]

theorem toText_ne_empty {id : Uuid} : Uuid.toText id ≠ "" := by
  intro h
  have h := congrArg String.toList h
  simp [Uuid.toText] at h

theorem composeStixId_eq {typePrefix : String} {id : Uuid} (hi : id < 2 ^ 128)
    (hs : splitOnce (typePrefix.toList ++ ['-']) = none) (hp : isValidTypePrefix typePrefix.toList) :
    ∃ stixId, composeStixId typePrefix id = some stixId ∧
      stixId.text = typePrefix ++ "--" ++ Uuid.toText id := by
  have hl : (typePrefix ++ "--" ++ Uuid.toText id).toList =
      typePrefix.toList ++ '-' :: '-' :: (Uuid.toText id).toList := by
    simp
  have hn : typePrefix.toList ≠ [] := by
    intro hn
    rw [hn] at hp
    cases hp
  have hc : StixId.check (typePrefix ++ "--" ++ Uuid.toText id) = .ok () := by
    simp [StixId.check, hl, splitOnce_append hs, hn, hp, toText_ne_empty, Uuid.parseStr_toText hi]
  refine ⟨⟨_, hc⟩, ?_, rfl⟩
  rw [composeStixId, StixId.parse_text ⟨_, hc⟩]
  rfl

theorem composeStixId_stixType {id : Uuid} (hi : id < 2 ^ 128) (t : EntityType) :
    ∃ stixId, composeStixId (stixType t) id = some stixId ∧
      stixId.text = stixType t ++ "--" ++ Uuid.toText id := by
  apply composeStixId_eq hi
  case hs => cases t <;> rfl
  case hp => cases t <;> rfl

end StixId

variable {lib : NameLib} {time : TimeText} {entity : Entity}

-- The names which an object for an entity of this type uses for itself.
def reservedFor : EntityType → List String
  | .person | .organization       =>
    ["type", "id", "identity_class", "name", "description"] ++ StixObject.commonNames
  | .threatActor | .vulnerability => ["type", "id", "name", "description"] ++ StixObject.commonNames
  | .malware                      =>
    ["type", "id", "name", "description", "is_family"] ++ StixObject.commonNames
  | .indicator                    =>
    ["type", "id", "name", "pattern", "description"] ++ StixObject.commonNames
  | .domain | .ip | .url | .email => ["type", "id", "value"] ++ StixObject.commonNames
  | .account | .hostname | .repository | .hash | .software | .product | .location => ["type", "id"]

theorem mergeAttributes_nil {extra : Fields Json} : (mergeAttributes extra []).fields = extra :=
  Json.fields_ofFields

theorem value_mergeAttributes {names : List String} {extra : Fields Json}
    {pairs : List (String × Json)} (he : ∀ k ∈ names, extra.value k = none)
    (hp : ∀ p ∈ pairs, p.fst ∉ names) :
    ∀ k ∈ names, (mergeAttributes extra pairs).fields.value k = none := by
  rw [mergeAttributes, Json.fields_ofFields]
  induction pairs generalizing extra
  case nil => exact he
  case cons p pairs hi =>
    have ⟨hp, hps⟩ := List.forall_mem_cons.mp hp
    refine hi (fun k hk => ?_) hps
    have hn : p.fst ≠ k := fun h => hp (h ▸ hk)
    rw [← Prod.mk.eta (p := p), Fields.value_put, if_neg hn, he k hk]

-- An entity which has been read from an object has none of the object's names as an attribute.
theorem stixObjectToEntity_reserved {obj : StixObject} {m : MappedEntity} (hp : obj.Proper)
    (h : stixObjectToEntity lib obj = some m) :
    obj.reserved = reservedFor m.entityType ∧
      ∀ k ∈ obj.reserved, m.attributes.fields.value k = none := by
  have hn : ∀ p ∈ ([] : List (String × Json)), p.fst ∉ obj.reserved := by simp
  cases obj
  case identity v =>
    simp only [stixObjectToEntity, identityToEntity] at h
    cases hc : v.identityClass <;> simp only [hc] at h <;> cases h
    all_goals exact ⟨rfl, value_mergeAttributes hp.left hn⟩
  case malware v =>
    cases h
    refine ⟨rfl, value_mergeAttributes hp.left fun p hm => ?_⟩
    have ⟨_, _, hm⟩ := List.mem_map.mp hm
    subst hm
    simp [StixObject.reserved, StixObject.commonNames]
  case indicator v =>
    cases h
    refine ⟨rfl, value_mergeAttributes hp.left fun p hm => ?_⟩
    have ⟨_, _, hm⟩ := List.mem_map.mp hm
    subst hm
    simp [StixObject.reserved, StixObject.commonNames]
  case relationship v => cases h
  case custom v       => cases h
  case unknown v      => cases h
  all_goals
    cases h
    exact ⟨rfl, value_mergeAttributes hp.left hn⟩

-- The entity is exported, written, read and imported again.
def roundTrip (lib : NameLib) (time : TimeText) (entity : Entity) : Option MappedEntity := do
  let obj ← entityToStixObject entity
  let obj ← StixObject.decode time (obj.encode time)
  stixObjectToEntity lib obj

-- What is imported is what the entity is.
structure Restores (entity : Entity) (m : MappedEntity) : Prop where
  entityType     : m.entityType = entity.entityType
  name           : m.name = entity.name
  normalizedName : m.normalizedName = entity.normalizedName
  description    : m.description = entity.description
  attributes     : m.attributes.fields = entity.attributes.fields

-- No attribute has a name which the object uses for itself.
def Unreserved (entity : Entity) : Prop :=
  ∀ k ∈ reservedFor entity.entityType, entity.attributes.get k = none

-- The object has a place for the description and for the attributes which become its fields.
def Fits (entity : Entity) : Prop :=
  match entity.entityType with
  | .malware   => ∀ v, entity.attributes.get "x_stix_is_family" = some v → v.asBool.isSome
  | .indicator => ∀ v, entity.attributes.get "x_stix_pattern" = some v → v.asStr.isSome
  | .domain | .ip | .url | .email => entity.description = none
  | _          => True

-- There is a type of object of its own, and the name of an indicator stands for itself.
def Mapped (entity : Entity) : Prop :=
  match entity.entityType with
  | .person | .organization | .threatActor | .vulnerability | .malware => True
  | .domain | .ip | .url | .email => True
  | .indicator =>
    Text.trim entity.name = entity.name ∧ entity.name ≠ "" ∨
    Text.trim entity.name = "" ∧ entity.attributes.get "x_stix_pattern" = some (.string entity.name)
  | .account | .hostname | .repository | .hash | .software | .product | .location => False

variable {id : StixId}

theorem reserved_objectFromEntity :
    (objectFromEntity entity id).reserved = reservedFor entity.entityType := by
  obtain ⟨_, t, _⟩ := entity
  cases t <;> rfl

theorem extra_objectFromEntity (h : Unreserved entity) :
    ∀ k ∈ reservedFor entity.entityType, (objectFromEntity entity id).extra.value k = none := by
  have hw {names : List String} (skip : List String) (hs : ∀ k ∈ names, k ∉ skip)
      (h : ∀ k ∈ names, entity.attributes.get k = none) :
      ∀ k ∈ names, (extraFromAttributes entity.attributes skip).value k = none := by
    intro k hk
    rw [extraFromAttributes, Fields.value_without, if_neg (hs k hk), ← Json.get_eq_value, h k hk]
  have hc (h : ∀ k ∈ ["type", "id"], entity.attributes.get k = none) :
      ∀ k ∈ ["type", "id"], (customFromEntity entity id).extra.value k = none := by
    intro k hk
    have hw := hw ["x_osint_core_type", "x_osint_core_id", "name", "description"] (by simp) h k hk
    simp only [List.mem_cons, List.not_mem_nil, or_false] at hk
    rcases hk with rfl | rfl
    all_goals cases hd : entity.description <;> simp [customFromEntity, hd, hw]
  obtain ⟨_, t, _⟩ := entity
  cases t
  case malware   => exact hw _ (by simp [reservedFor, StixObject.commonNames]) h
  case indicator => exact hw _ (by simp [reservedFor, StixObject.commonNames]) h
  case account | hostname | repository | hash | software | product | location =>
    exact hc h
  all_goals exact hw [] (by simp) h

theorem proper_objectFromEntity (h : Unreserved entity) : (objectFromEntity entity id).Proper := by
  refine ⟨reserved_objectFromEntity ▸ extra_objectFromEntity h, ?_⟩
  obtain ⟨_, t, _⟩ := entity
  cases t
  case account | hostname | repository | hash | software | product | location =>
    have hx : "x-osint-core-entity" ∉ StixObject.knownTypes ∧
      Text.startsWith "x-osint-core-entity" "x-" := by decide
    exact hx
  all_goals exact trivial

theorem bind_asStr_eq_some {j : Option Json} {s : String} :
    j >>= Json.asStr = some s ↔ j = some (.string s) := by
  cases j
  case none   => simp
  case some j => simp [Json.asStr_eq_some]

-- An attribute which has become a field of the object comes back if it has the field's type.
theorem mergeAttributes_without {α : Type} {m : Fields Json} {name : String}
    {decode : Json → Option α} {encode : α → Json} (h : ∀ v a, decode v = some a ↔ v = encode a) :
    (mergeAttributes (m.without [name])
      (((m.value name).bind decode).toList.map fun a => (name, encode a))).fields = m ↔
        ∀ v, m.value name = some v → (decode v).isSome := by
  have hv : ((mergeAttributes (m.without [name])
      (((m.value name).bind decode).toList.map fun a => (name, encode a))).fields).value name =
        ((m.value name).bind decode).map encode := by
    cases (m.value name).bind decode <;> simp [mergeAttributes]
  have hn {k : String} (hk : k ≠ name) : ((mergeAttributes (m.without [name])
      (((m.value name).bind decode).toList.map fun a => (name, encode a))).fields).value k =
        m.value k := by
    cases (m.value name).bind decode <;> simp [mergeAttributes, hk, hk.symm]
  constructor
  case mp =>
    intro he v hm
    rw [he, hm, Option.bind_some] at hv
    have ⟨a, ha, _⟩ := Option.map_eq_some_iff.mp hv.symm
    simp [ha]
  case mpr =>
    intro hd
    apply Fields.ext_value
    intro k
    by_cases hk : k = name
    case neg => exact hn hk
    case pos =>
      subst hk
      rw [hv]
      cases hm : m.value k
      case none   => rfl
      case some v =>
        have ⟨a, ha⟩ := Option.isSome_iff_exists.mp (hd v hm)
        rw [Option.bind_some, ha, (h v a).mp ha]
        rfl

theorem trim_ne_empty {s : String} {c : Char} {l : List Char} (hs : s.toList = c :: l)
    (hc : ¬Text.isWhitespace c) : Text.trim s ≠ "" := by
  intro h
  have h := congrArg String.toList h
  simp only [Text.trim, String.toList_ofList, hs, List.dropWhile_cons_of_neg hc] at h
  have h : (c :: l).reverse.dropWhile Text.isWhitespace = [] := by simpa using h
  exact hc <| List.dropWhile_eq_nil_iff.mp h c (by simp)

-- The name of an indicator is trimmed, and stands for itself if nothing else could be its name.
theorem indicatorName_eq {name text : String} {pattern : Option String} (ht : Text.trim text ≠ "") :
    (((some name).map Text.trim).filter (· ≠ "") <|> pattern).getD text = name ↔
      Text.trim name = name ∧ name ≠ "" ∨ Text.trim name = "" ∧ pattern = some name := by
  by_cases hn : Text.trim name = ""
  case pos =>
    have hl : ¬(Text.trim name = name ∧ name ≠ "") := fun ⟨he, hne⟩ => hne (he.symm.trans hn)
    have hf : ((some name).map Text.trim).filter (· ≠ "") = none := by simp [hn]
    rw [hf, or_iff_right hl, and_iff_right hn]
    cases pattern
    case some p => simp
    case none   => exact ⟨fun (he : text = name) => absurd (he ▸ hn) ht, nofun⟩
  case neg =>
    have hne (he : Text.trim name = name) : name ≠ "" := he ▸ hn
    have hf : ((some name).map Text.trim).filter (· ≠ "") = some (Text.trim name) := by simp [hn]
    rw [hf, or_iff_left fun h => hn h.left]
    exact ⟨fun he => ⟨he, hne he⟩, And.left⟩

theorem restores_mapped {t : EntityType} {name : String} {description : Option String}
    {attributes : Json} : Restores entity (mapped lib t name description attributes id) ↔
      t = entity.entityType ∧ name = entity.name ∧ normalizeName lib t name = entity.normalizedName ∧
        description = entity.description ∧ attributes.fields = entity.attributes.fields :=
  ⟨fun h => ⟨h.entityType, h.name, h.normalizedName, h.description, h.attributes⟩,
    fun ⟨h₁, h₂, h₃, h₄, h₅⟩ => ⟨h₁, h₂, h₃, h₄, h₅⟩⟩

theorem restores_objectFromEntity (ht : Text.trim id.text ≠ "") :
    (∃ m, stixObjectToEntity lib (objectFromEntity entity id) = some m ∧ Restores entity m) ↔
      normalizeName lib entity.entityType entity.name = entity.normalizedName ∧ Fits entity ∧
        Mapped entity := by
  obtain ⟨_, t, name, normalizedName, description, _, _, _, _, attributes⟩ := entity
  cases t
  case malware =>
    simp only [objectFromEntity, stixObjectToEntity, malwareToEntity, malwareFromEntity,
      Option.some.injEq, exists_eq_left', restores_mapped, Fits, Mapped, extraFromAttributes,
      Json.get_eq_value, true_and, and_true]
    exact and_congr_right fun _ => mergeAttributes_without fun _ _ => Json.asBool_eq_some
  case indicator =>
    simp only [objectFromEntity, stixObjectToEntity, indicatorToEntity, indicatorFromEntity,
      Option.some.injEq, exists_eq_left', restores_mapped, Fits, Mapped, extraFromAttributes,
      Json.get_eq_value, true_and, indicatorName_eq ht, bind_asStr_eq_some]
    constructor
    case mp =>
      intro ⟨hn, hl, ha⟩
      rw [(indicatorName_eq ht).mpr (by rwa [bind_asStr_eq_some])] at hl
      exact ⟨hl, (mergeAttributes_without fun _ _ => Json.asStr_eq_some).mp ha, hn⟩
    case mpr =>
      intro ⟨hl, ha, hn⟩
      rw [(indicatorName_eq ht).mpr (by rwa [bind_asStr_eq_some])]
      exact ⟨hn, hl, (mergeAttributes_without fun _ _ => Json.asStr_eq_some).mpr ha⟩
  all_goals
    simp [objectFromEntity, stixObjectToEntity, identityToEntity, identityFromEntity,
      threatActorFromEntity, vulnerabilityFromEntity, scoToEntity, domainNameFromEntity,
      ipv4AddrFromEntity, urlFromEntity, emailAddrFromEntity, restores_mapped, Fits, Mapped,
      mergeAttributes_nil, extraFromAttributes, eq_comm (a := none)]

theorem trim_id_ne_empty {t : EntityType} (h : id.text = stixType t ++ "--" ++ Uuid.toText entity.id) :
    Text.trim id.text ≠ "" := by
  rw [h]
  cases t
  all_goals exact trim_ne_empty (by simp [stixType]; exact ⟨rfl, rfl⟩) (by decide)

-- What is written for an entity is read as it was.
theorem roundTrip_eq (lib : NameLib) (time : TimeText) (hi : entity.id < 2 ^ 128) (h : Unreserved entity) :
    ∃ id, Text.trim id.text ≠ "" ∧
      roundTrip lib time entity = stixObjectToEntity lib (objectFromEntity entity id) := by
  have ⟨id, hc, ht⟩ := composeStixId_stixType hi entity.entityType
  refine ⟨id, trim_id_ne_empty ht, ?_⟩
  have he : entityToStixObject entity = some (objectFromEntity entity id) := by
    rw [entityToStixObject, hc, Option.map_some]
  have hd : StixObject.decode time ((objectFromEntity entity id).encode time) =
      some (objectFromEntity entity id) := StixObject.decode_encode (proper_objectFromEntity h)
  simp [roundTrip, he, hd]

-- Nothing is lost if the object holds all of the entity, its name is in the form which the import
-- gives to it, and there is a type of object for it. Other types are written as custom objects, which
-- are not imported.
theorem roundTrip_restores (lib : NameLib) (time : TimeText) (entity : Entity)
    (hi : entity.id < 2 ^ 128) (hu : Unreserved entity) (hf : Fits entity) :
    (∃ m, roundTrip lib time entity = some m ∧ Restores entity m) ↔
      Mapped entity ∧ normalizeName lib entity.entityType entity.name = entity.normalizedName := by
  have ⟨id, ht, he⟩ := roundTrip_eq lib time hi hu
  rw [he, restores_objectFromEntity ht]
  exact ⟨fun ⟨hn, _, hm⟩ => ⟨hm, hn⟩, fun ⟨hm, hn⟩ => ⟨hn, hf, hm⟩⟩

-- An entity which has lost nothing has had none of the reserved names.
theorem unreserved_of_restores {m : MappedEntity} (h : roundTrip lib time entity = some m)
    (hr : Restores entity m) : Unreserved entity := by
  obtain ⟨obj, _, h⟩ := Option.bind_eq_some_iff.mp h
  obtain ⟨obj', hd, hm⟩ := Option.bind_eq_some_iff.mp h
  obtain ⟨ht, hn⟩ := stixObjectToEntity_reserved (StixObject.decode_proper hd) hm
  intro k hk
  rw [Json.get_eq_value, ← hr.attributes]
  exact hn k <| by rwa [ht, hr.entityType]

def asciiNames : NameLib where
  toLowercase  := Text.toAsciiLowercase
  ipText       := some
  canonicalize := some

def described (t : EntityType) (name : String) : Entity where
  id             := 1
  entityType     := t
  name           := name
  normalizedName := name
  description    := some "seen once"
  confidence     := 1
  firstSeen      := 0
  lastSeen       := 0
  mergedInto     := none
  attributes     := .object [("x_role", .string "buyer")]

-- A malware and an indicator with the attributes which become fields of their objects
def emotet : Entity :=
  { described .malware "emotet" with
    attributes := .object [("x_stix_is_family", .bool true), ("x_role", .string "loader")] }

def beacon : Entity :=
  { described .indicator "beacon" with
    attributes := .object [("x_stix_pattern", .string "[url:value = 'http://h/']")] }

theorem roundTrip_restores_described :
    (∃ m, roundTrip asciiNames .epoch (described .person "alice") = some m ∧
      Restores (described .person "alice") m) ∧
    (∃ m, roundTrip asciiNames .epoch emotet = some m ∧ Restores emotet m) ∧
    ∃ m, roundTrip asciiNames .epoch beacon = some m ∧ Restores beacon m := by
  have hu (entity : Entity) (h : ∀ k ∈ reservedFor entity.entityType,
      entity.attributes.fields.value k = none) : Unreserved entity := fun k hk =>
    (Json.get_eq_value ..).trans (h k hk)
  have hd : Mapped beacon := .inl ⟨by decide, by decide⟩
  have hf : Fits emotet ∧ Fits beacon := by
    simp [Fits, emotet, beacon, described, Json.get, Json.asObject, List.lookup, Json.asBool,
      Json.asStr]
  refine ⟨?_, ?_, ?_⟩
  case refine_1 =>
    exact (roundTrip_restores asciiNames .epoch (described .person "alice") (by decide)
      (hu _ (by decide +kernel)) trivial).mpr ⟨trivial, by decide +kernel⟩
  case refine_2 =>
    exact (roundTrip_restores asciiNames .epoch emotet (by decide)
      (hu _ (by decide +kernel)) hf.left).mpr ⟨trivial, by decide +kernel⟩
  case refine_3 =>
    exact (roundTrip_restores asciiNames .epoch beacon (by decide)
      (hu _ (by decide +kernel)) hf.right).mpr ⟨hd, by decide +kernel⟩

-- An account is written as a custom object, and nothing is imported from it.
theorem not_roundTrip_restores :
    ¬∃ m, roundTrip asciiNames .epoch (described .account "alice") = some m ∧
      Restores (described .account "alice") m := by
  have hu : Unreserved (described .account "alice") := by
    simp [Unreserved, reservedFor, described, Json.get, Json.asObject, List.lookup]
  have ⟨id, _, he⟩ := roundTrip_eq asciiNames .epoch (by decide) hu
  rw [he]
  exact fun ⟨_, h, _⟩ => nomatch h

end Stix
