import OsintCore.Projection.Worker
import OsintCore.Stix.Codec

abbrev CoreRelationship := Relationship

-- `str::split_whitespace`
def Text.splitWhitespace (s : String) : List String :=
  s.toList.splitOnP isWhitespace |>.filter (· ≠ []) |>.map .ofList

-- The libraries which normalize names. An address is read and displayed again.
structure NameLib where
  toLowercase  : String → String
  ipText       : String → Option String
  canonicalize : String → Option String

namespace Stix

structure MappedEntity where
  entityType     : EntityType
  name           : String
  normalizedName : String
  description    : Option String
  attributes     : Json
  stixId         : StixId

structure MappedRelationship where
  sourceRef            : StixId
  targetRef            : StixId
  relationshipType     : RelationshipType
  stixRelationshipType : String
  deriving DecidableEq

def mapRelationshipType (stixType : String) : RelationshipType :=
  match Text.trim stixType with
  | "indicates"     => .indicates
  | "attributed-to" => .attributedTo
  | "targets"       => .targets
  | "mitigates"     => .mitigates
  | "uses"          => .uses
  | "located-at"    => .locatedAt
  | "derived-from"  => .derivedFrom
  | "belongs-to"    => .belongsTo
  | "member-of"     => .memberOf
  | _               => .associatedWith

def stixRelationshipToCore (rel : Relationship) : MappedRelationship where
  sourceRef            := rel.sourceRef
  targetRef            := rel.targetRef
  relationshipType     := mapRelationshipType rel.relationshipType
  stixRelationshipType := rel.relationshipType

def mergeAttributes (extra : Fields Json) (pairs : List (String × Json)) : Json :=
  .ofFields <| pairs.foldl .put extra

def extraFromAttributes (attributes : Json) (skip : List String) : Fields Json :=
  attributes.fields.without skip

section Import

variable (lib : NameLib)

def normalizePersonOrOrg (raw : String) : String :=
  lib.toLowercase <| " ".intercalate <| Text.splitWhitespace raw

def normalizeName (entityType : EntityType) (name : String) : String :=
  match entityType with
  | .person | .organization | .threatActor | .malware | .indicator | .account | .hostname | .software
  | .product | .repository | .location => normalizePersonOrOrg lib name
  | .domain        => Text.trimEndMatches '.' <| Text.toAsciiLowercase name
  | .ip            => lib.ipText name |>.getD name
  | .url           => lib.canonicalize name |>.getD name
  | .email         => Text.trimEndMatches '.' <| Text.toAsciiLowercase name
  | .vulnerability => Text.toAsciiUppercase name
  | .hash          => Text.toAsciiLowercase name

def mapped (entityType : EntityType) (name : String) (description : Option String)
    (attributes : Json) (stixId : StixId) : MappedEntity where
  entityType     := entityType
  name           := name
  normalizedName := normalizeName lib entityType name
  description    := description
  attributes     := attributes
  stixId         := stixId

-- Persons and organizations only, other classes have no type of entity.
def identityToEntity (identity : Identity) : Option MappedEntity := do
  let entityType : EntityType ← match identity.identityClass with
    | .individual   => some .person
    | .organization => some .organization
    | _             => none
  return mapped lib entityType identity.name identity.description
    (mergeAttributes identity.extra []) identity.id

def malwareToEntity (malware : Malware) : MappedEntity :=
  let pairs := malware.isFamily.toList.map fun isFamily => ("x_stix_is_family", .bool isFamily)
  mapped lib .malware malware.name malware.description (mergeAttributes malware.extra pairs) malware.id

def indicatorToEntity (indicator : Indicator) : MappedEntity :=
  let name := (indicator.name.map Text.trim).filter (· ≠ "") <|> indicator.pattern
  let pairs := indicator.pattern.toList.map fun pattern => ("x_stix_pattern", .string pattern)
  mapped lib .indicator (name.getD indicator.id.text) indicator.description
    (mergeAttributes indicator.extra pairs) indicator.id

def scoToEntity (entityType : EntityType) (value : String) (extra : Fields Json) (stixId : StixId) :
    MappedEntity :=
  mapped lib entityType value none (mergeAttributes extra []) stixId

def stixObjectToEntity : StixObject → Option MappedEntity
  | .identity identity  => identityToEntity lib identity
  | .threatActor actor  => some <| mapped lib .threatActor actor.name actor.description
    (mergeAttributes actor.extra []) actor.id
  | .malware malware     => some <| malwareToEntity lib malware
  | .vulnerability vuln  => some <| mapped lib .vulnerability vuln.name vuln.description
    (mergeAttributes vuln.extra []) vuln.id
  | .indicator indicator => some <| indicatorToEntity lib indicator
  | .domainName sco      => some <| scoToEntity lib .domain sco.value sco.extra sco.id
  | .ipv4Addr sco        => some <| scoToEntity lib .ip sco.value sco.extra sco.id
  | .url sco             => some <| scoToEntity lib .url sco.value sco.extra sco.id
  | .emailAddr sco       => some <| scoToEntity lib .email sco.value sco.extra sco.id
  | .relationship _
  | .custom _
  | .unknown _           => none

end Import

-- No value if the id is refused, which is a panic.
def composeStixId (typePrefix : String) (uuid : Uuid) : Option StixId :=
  (StixId.parse <| typePrefix ++ "--" ++ Uuid.toText uuid).toOption

def commonFromEntity (entity : Entity) : CommonProperties where
  specVersion := some "2.1"
  created     := some entity.firstSeen
  modified    := some entity.lastSeen

section Export

variable (entity : Entity) (id : StixId)

def identityFromEntity (identityClass : IdentityClass) : Identity where
  id            := id
  identityClass := identityClass
  name          := entity.name
  description   := entity.description
  common        := commonFromEntity entity
  extra         := extraFromAttributes entity.attributes []

def threatActorFromEntity : ThreatActor where
  id          := id
  name        := entity.name
  description := entity.description
  common      := commonFromEntity entity
  extra       := extraFromAttributes entity.attributes []

def malwareFromEntity : Malware where
  id          := id
  name        := entity.name
  description := entity.description
  isFamily    := entity.attributes.get "x_stix_is_family" >>= Json.asBool
  common      := commonFromEntity entity
  extra       := extraFromAttributes entity.attributes ["x_stix_is_family"]

def vulnerabilityFromEntity : Vulnerability where
  id          := id
  name        := entity.name
  description := entity.description
  common      := commonFromEntity entity
  extra       := extraFromAttributes entity.attributes []

def indicatorFromEntity : Indicator where
  id          := id
  name        := some entity.name
  pattern     := entity.attributes.get "x_stix_pattern" >>= Json.asStr
  description := entity.description
  common      := commonFromEntity entity
  extra       := extraFromAttributes entity.attributes ["x_stix_pattern"]

def domainNameFromEntity : DomainName where
  id     := id
  value  := entity.name
  common := commonFromEntity entity
  extra  := extraFromAttributes entity.attributes []

def ipv4AddrFromEntity : Ipv4Addr where
  id     := id
  value  := entity.name
  common := commonFromEntity entity
  extra  := extraFromAttributes entity.attributes []

def urlFromEntity : Url where
  id     := id
  value  := entity.name
  common := commonFromEntity entity
  extra  := extraFromAttributes entity.attributes []

def emailAddrFromEntity : EmailAddr where
  id     := id
  value  := entity.name
  common := commonFromEntity entity
  extra  := extraFromAttributes entity.attributes []

def customFromEntity : CustomObject where
  type  := "x-osint-core-entity"
  id    := id
  extra :=
    let extra := extraFromAttributes entity.attributes
      ["x_osint_core_type", "x_osint_core_id", "name", "description"]
      |>.put ("x_osint_core_type", .string entity.entityType.text)
      |>.put ("x_osint_core_id", .string (Uuid.toText entity.id))
      |>.put ("name", .string entity.name)
    entity.description.elim extra fun description => extra.put ("description", .string description)

end Export

-- Types of entities without a type of object of their own become custom objects.

def stixType : EntityType → String
  | .person        => "identity"
  | .organization  => "identity"
  | .threatActor   => "threat-actor"
  | .malware       => "malware"
  | .vulnerability => "vulnerability"
  | .indicator     => "indicator"
  | .domain        => "domain-name"
  | .ip            => "ipv4-addr"
  | .url           => "url"
  | .email         => "email-addr"
  | .account | .hostname | .repository | .hash | .software | .product | .location =>
    "x-osint-core-entity"

def objectFromEntity (entity : Entity) (id : StixId) : StixObject :=
  match entity.entityType with
  | .person        => .identity <| identityFromEntity entity id .individual
  | .organization  => .identity <| identityFromEntity entity id .organization
  | .threatActor   => .threatActor <| threatActorFromEntity entity id
  | .malware       => .malware <| malwareFromEntity entity id
  | .vulnerability => .vulnerability <| vulnerabilityFromEntity entity id
  | .indicator     => .indicator <| indicatorFromEntity entity id
  | .domain        => .domainName <| domainNameFromEntity entity id
  | .ip            => .ipv4Addr <| ipv4AddrFromEntity entity id
  | .url           => .url <| urlFromEntity entity id
  | .email         => .emailAddr <| emailAddrFromEntity entity id
  | .account | .hostname | .repository | .hash | .software | .product | .location =>
    .custom <| customFromEntity entity id

def entityToStixObject (entity : Entity) : Option StixObject :=
  composeStixId (stixType entity.entityType) entity.id |>.map (objectFromEntity entity)

end Stix
