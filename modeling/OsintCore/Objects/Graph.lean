import OsintCore.Objects.Basic
import OsintCore.Table.Constraints

structure Entity where
  id             : EntityId
  entityType     : EntityType
  name           : String
  normalizedName : String
  description    : Option String
  confidence     : Confidence
  firstSeen      : Timestamp
  lastSeen       : Timestamp
  -- The survivor of the merge which merged this entity away. The row itself is never deleted.
  mergedInto     : Option EntityId
  attributes     : Json

structure EntityAlias where
  id         : EntityAliasId
  entityId   : EntityId
  «alias»    : String
  aliasType  : String
  sourceId   : Option SourceId
  confidence : Confidence
  firstSeen  : Timestamp
  lastSeen   : Timestamp
  deriving DecidableEq

structure EntityIdentifier where
  id              : EntityIdentifierId
  entityId        : EntityId
  «namespace»     : String
  value           : String
  normalizedValue : String
  confidence      : Confidence
  sourceId        : Option SourceId
  firstSeen       : Timestamp
  lastSeen        : Timestamp
  deriving DecidableEq

structure EntityExtraction where
  id               : EntityExtractionId
  objectId         : ObjectId
  entityId         : EntityId
  extractor        : String
  extractorVersion : String
  confidence       : Confidence
  textOffset       : Option Int32
  excerpt          : Option String
  deriving DecidableEq

structure Relationship where
  id               : RelationshipId
  sourceObjectId   : ObjectId
  relationshipType : RelationshipType
  targetObjectId   : ObjectId
  confidence       : Confidence
  firstSeen        : Timestamp
  lastSeen         : Timestamp
  evidenceCount    : Int32
  createdAt        : Timestamp
  updatedAt        : Timestamp
  deriving DecidableEq

structure RelationshipEvidence where
  id             : RelationshipEvidenceId
  relationshipId : RelationshipId
  objectId       : ObjectId
  rawEvidenceId  : Option RawEvidenceId
  excerpt        : Option String
  confidence     : Confidence
  createdAt      : Timestamp
  deriving DecidableEq

-- One column of one row which a merge rewrote, with the value it had before.
structure RepointedReference where
  table         : String
  rowId         : Uuid
  column        : String
  previousValue : Uuid
  deriving DecidableEq

-- The columns of an absorber which a merge rewrites, as they were before.
structure AbsorberSnapshot where
  evidenceCount : Int32
  confidence    : Confidence
  firstSeen     : Timestamp
  lastSeen      : Timestamp
  deriving DecidableEq

-- A relationship which a merge deleted. It has no absorber if it became a self-loop.
structure MergedRelationship where
  absorbedRelationshipId : RelationshipId
  absorberRelationshipId : Option RelationshipId
  absorbedSnapshot       : Relationship
  absorberPreMerge       : Option AbsorberSnapshot
  movedEvidenceIds       : List RelationshipEvidenceId
  deriving DecidableEq

structure MergeHistory where
  id                  : MergeHistoryId
  survivorId          : EntityId
  mergedId            : EntityId
  reason              : String
  operator            : String
  timestamp           : Timestamp
  repointedReferences : List RepointedReference
  mergedRelationships : List MergedRelationship
  undoneAt            : Option Timestamp
  autoApprovalAudit   : Option Json

instance : Keyed Entity Uuid               := ⟨Entity.id⟩
instance : Keyed EntityAlias Uuid          := ⟨EntityAlias.id⟩
instance : Keyed EntityIdentifier Uuid     := ⟨EntityIdentifier.id⟩
instance : Keyed EntityExtraction Uuid     := ⟨EntityExtraction.id⟩
instance : Keyed Relationship Uuid         := ⟨Relationship.id⟩
instance : Keyed RelationshipEvidence Uuid := ⟨RelationshipEvidence.id⟩
instance : Keyed MergeHistory Uuid         := ⟨MergeHistory.id⟩

namespace Entity

-- The columns of `idx_entities_natural_key`.
def naturalKey (e : Entity) : EntityType × String :=
  (e.entityType, e.normalizedName)

@[simp]
theorem key_eq (e : Entity) : Keyed.key e = e.id :=
  rfl

end Entity

namespace EntityAlias

@[simp]
theorem key_eq (a : EntityAlias) : Keyed.key a = a.id :=
  rfl

end EntityAlias

namespace EntityIdentifier

-- The columns of `idx_entity_identifiers_natural`.
def naturalKey (i : EntityIdentifier) : String × String :=
  (i.namespace, i.normalizedValue)

@[simp]
theorem key_eq (i : EntityIdentifier) : Keyed.key i = i.id :=
  rfl

end EntityIdentifier

namespace EntityExtraction

@[simp]
theorem key_eq (e : EntityExtraction) : Keyed.key e = e.id :=
  rfl

end EntityExtraction

namespace Relationship

-- The columns of `idx_relationships_natural_key`.
def naturalKey (r : Relationship) : ObjectId × RelationshipType × ObjectId :=
  (r.sourceObjectId, r.relationshipType, r.targetObjectId)

-- One of the ends of the relationship is the given object.
def Touches (r : Relationship) (id : ObjectId) : Prop :=
  r.sourceObjectId = id ∨ r.targetObjectId = id

instance {r : Relationship} {id : ObjectId} : Decidable (r.Touches id) :=
  inferInstanceAs (Decidable (_ ∨ _))

@[simp]
theorem key_eq (r : Relationship) : Keyed.key r = r.id :=
  rfl

theorem naturalKey_eq_iff {r₁ r₂ : Relationship} :
    r₁.naturalKey = r₂.naturalKey ↔ r₁.sourceObjectId = r₂.sourceObjectId ∧
      r₁.relationshipType = r₂.relationshipType ∧ r₁.targetObjectId = r₂.targetObjectId := by
  simp [naturalKey]

theorem Touches.of_naturalKey {r₁ r₂ : Relationship} {id : ObjectId} (ht : r₁.Touches id)
    (h : r₁.naturalKey = r₂.naturalKey) : r₂.Touches id := by
  have ⟨hs, _, hd⟩ := naturalKey_eq_iff.mp h
  simpa [Touches, hs, hd] using ht

end Relationship

namespace RelationshipEvidence

@[simp]
theorem key_eq (e : RelationshipEvidence) : Keyed.key e = e.id :=
  rfl

end RelationshipEvidence

namespace MergeHistory

@[simp]
theorem key_eq (h : MergeHistory) : Keyed.key h = h.id :=
  rfl

end MergeHistory

-- Rows of which only the keys and the ends matter, for examples.
namespace Sample

def person (id : EntityId) (name : String) : Entity where
  id             := id
  entityType     := .person
  name           := name
  normalizedName := name
  description    := none
  confidence     := 1
  firstSeen      := 0
  lastSeen       := 0
  mergedInto     := none
  attributes     := .null

def owns (id : RelationshipId) (source target : ObjectId) (evidenceCount : Int32) :
    Relationship where
  id               := id
  sourceObjectId   := source
  relationshipType := .owns
  targetObjectId   := target
  confidence       := 1
  firstSeen        := 0
  lastSeen         := 0
  evidenceCount    := evidenceCount
  createdAt        := 0
  updatedAt        := 0

def evidenceOf (relationshipId : RelationshipId) (id : RelationshipEvidenceId) :
    RelationshipEvidence where
  id             := id
  relationshipId := relationshipId
  objectId       := 0
  rawEvidenceId  := none
  excerpt        := none
  confidence     := 1
  createdAt      := 0

end Sample
