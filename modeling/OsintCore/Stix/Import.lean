import OsintCore.Stix.Mapping
import OsintCore.Storage.Store

namespace Stix

inductive ImportError
  | evidenceNotFound (id : RawEvidenceId)
  | blobMissing (rawEvidenceId : RawEvidenceId)
  | bundleParse
  | tooManyObjects (mapped max : Nat)
  | storage (e : StorageError)
  deriving DecidableEq

def processor : String := "stix-worker"
def actionStixImported : String := "stix_imported"
def stixDefaultConfidence : Confidence := 4 / 5
def stixIdentifierNamespace : String := "stix"

structure PlannedBundle where
  entities       : List MappedEntity       := []
  relationships  : List MappedRelationship := []
  skippedObjects : Nat                     := 0

-- A relationship which has been written, as it is published afterwards.
structure RelationshipFact where
  relationshipId   : RelationshipId
  sourceObjectId   : EntityId
  targetObjectId   : EntityId
  relationshipType : RelationshipType
  deriving DecidableEq

structure ImportReport where
  entityCount          : Nat
  relationshipCount    : Nat
  skippedObjects       : Nat
  skippedRelationships : Nat
  deriving DecidableEq

-- The libraries and options of the worker.
structure StixWorker where
  lib              : NameLib
  time             : TimeText
  newV5            : V5Name → Uuid
  maxObjectsPerTx  : Nat
  processorVersion : String

-- What is fixed during an import. Each claim gets a new id.
structure ImportContext where
  sourceId      : SourceId
  rawEvidenceId : RawEvidenceId
  now           : Timestamp
  claimId       : Nat → ProvenanceId

-- The state of an import transaction: the database and what the loops have collected so far.
structure ImportTx where
  db                   : Store
  claims               : Nat                     := 0
  writtenEntities      : List EntityId           := []
  stixToEntity         : StixId → Option EntityId := fun _ => none
  relationships        : List RelationshipFact   := []
  skippedRelationships : Nat                     := 0

namespace StixWorker

variable (w : StixWorker)

def entityId (entityType : EntityType) (normalizedName : String) : EntityId :=
  w.newV5 (.entity entityType normalizedName)

def relationshipId (source : ObjectId) (relationshipType : RelationshipType) (target : ObjectId) :
    RelationshipId :=
  w.newV5 (.relationship source relationshipType target)

def identifierId («namespace» : String) (entityId : EntityId) (normalizedValue : String) :
    EntityIdentifierId :=
  w.newV5 (.identifier «namespace» entityId normalizedValue)

def storage {α : Type} (x : Except StorageError α) : Except ImportError α :=
  x.mapError .storage

section Plan

def planObject (planned : PlannedBundle) (object : StixObject) : PlannedBundle :=
  match object with
  | .relationship rel =>
    { planned with relationships := planned.relationships ++ [stixRelationshipToCore rel] }
  | object =>
    match stixObjectToEntity w.lib object with
    | some mapped => { planned with entities := planned.entities ++ [mapped] }
    | none        => { planned with skippedObjects := planned.skippedObjects + 1 }

-- Objects which become one entity count once.
def planBundle (bundle : StixBundle) : Except ImportError PlannedBundle :=
  let planned := bundle.objects.foldl w.planObject {}
  let unique := planned.entities.map (fun m => w.entityId m.entityType m.normalizedName) |>.dedup
  if unique.length > w.maxObjectsPerTx then
    .error <| .tooManyObjects unique.length w.maxObjectsPerTx
  else
    .ok planned

end Plan

section Entities

def mergedAttributes (existing : Option Entity) (mapped : MappedEntity) : Json :=
  .ofFields <| (existing.elim ∅ (·.attributes.fields)).overlay mapped.attributes.fields

-- The first name and the first description count, of the attributes the last ones.
def upserted (existing : Option Entity) (mapped : MappedEntity) (now : Timestamp) : Entity where
  id             := existing.elim (w.entityId mapped.entityType mapped.normalizedName) (·.id)
  entityType     := mapped.entityType
  name           := existing.elim mapped.name (·.name)
  normalizedName := mapped.normalizedName
  description    := (existing >>= (·.description)) <|> mapped.description
  confidence     := existing.elim stixDefaultConfidence (max ·.confidence stixDefaultConfidence)
  firstSeen      := existing.elim now (·.firstSeen)
  lastSeen       := now
  mergedInto     := existing >>= (·.mergedInto)
  attributes     := mergedAttributes existing mapped

def upsertEntity (db : Store) (mapped : MappedEntity) (now : Timestamp) :
    Except ImportError (Entity × Store) :=
  let existing := db.findEntityByNormalizedName mapped.entityType mapped.normalizedName
  let entity := w.upserted existing mapped now
  match db.putEntity entity with
  | .ok db            => .ok (entity, db)
  | .error .conflict  =>
    match db.findEntityByNormalizedName mapped.entityType mapped.normalizedName with
    | some owner => .ok (owner, db)
    | none       => .error (.storage .conflict)
  | .error e          => .error (.storage e)

def stixIdentifier (entity : Entity) (mapped : MappedEntity) (sourceId : SourceId) :
    EntityIdentifier where
  id              := w.identifierId stixIdentifierNamespace entity.id mapped.stixId.text
  entityId        := entity.id
  «namespace»     := stixIdentifierNamespace
  value           := mapped.stixId.text
  normalizedValue := mapped.stixId.text
  confidence      := entity.confidence
  sourceId        := some sourceId
  firstSeen       := entity.firstSeen
  lastSeen        := entity.lastSeen

-- An id which already belongs to an entity, this one or another, is left there.
def writeStixIdentifier (db : Store) (entity : Entity) (mapped : MappedEntity)
    (sourceId : SourceId) : Except ImportError Store :=
  match db.findEntityIdentifierOwner stixIdentifierNamespace mapped.stixId.text with
  | some _ => .ok db
  | none   =>
    match db.putEntityIdentifier (w.stixIdentifier entity mapped sourceId) with
    | .ok db           => .ok db
    | .error .conflict => .ok db
    | .error e         => .error (.storage e)

end Entities

section Provenance

-- An import leaves a claim each time it is run.
def claimOf (ctx : ImportContext) (claims : Nat) (subjectId : ObjectId) (metadata : Json) :
    Provenance where
  id               := ctx.claimId claims
  subjectId        := subjectId
  action           := actionStixImported
  parentId         := some ctx.rawEvidenceId
  rawEvidenceId    := some ctx.rawEvidenceId
  processor        := processor
  processorVersion := w.processorVersion
  timestamp        := ctx.now
  metadata         := metadata

def entityMetadata (mapped : MappedEntity) : Json :=
  .object [("stix_id", .string mapped.stixId.text), ("entity_type", .string mapped.entityType.text)]

def relationshipMetadata (rel : MappedRelationship) : Json :=
  .object [
    ("stix_relationship_type", .string rel.stixRelationshipType),
    ("source_ref", .string rel.sourceRef.text), ("target_ref", .string rel.targetRef.text)]

end Provenance

section Relationships

def upsertedRelationship (existing : Option CoreRelationship) (source : EntityId)
    (relationshipType : RelationshipType) (target : EntityId) (now : Timestamp) :
    CoreRelationship where
  id               := w.relationshipId source relationshipType target
  sourceObjectId   := source
  relationshipType := relationshipType
  targetObjectId   := target
  confidence       := existing.elim stixDefaultConfidence (max ·.confidence stixDefaultConfidence)
  firstSeen        := existing.elim now (·.firstSeen)
  lastSeen         := now
  evidenceCount    := existing.elim 1 (·.evidenceCount)
  createdAt        := existing.elim now (·.createdAt)
  updatedAt        := now

def upsertRelationship (db : Store) (source : EntityId) (relationshipType : RelationshipType)
    (target : EntityId) (now : Timestamp) : Except ImportError (RelationshipId × Store) := do
  let id := w.relationshipId source relationshipType target
  let existing := db.getRelationship id
  let db ← storage <|
    db.putRelationship (w.upsertedRelationship existing source relationshipType target now)
  return (id, db)

end Relationships

section Loops

variable (ctx : ImportContext)

def importEntity (tx : ImportTx) (mapped : MappedEntity) : Except ImportError ImportTx := do
  let (persisted, db) ← w.upsertEntity tx.db mapped ctx.now
  let db ← w.writeStixIdentifier db persisted mapped ctx.sourceId
  let db ← storage <|
    db.putProvenance (w.claimOf ctx tx.claims persisted.id (entityMetadata mapped))
  return { tx with
    db              := db
    claims          := tx.claims + 1
    stixToEntity    := Function.update tx.stixToEntity mapped.stixId (some persisted.id)
    writtenEntities := tx.writtenEntities.insert persisted.id }

-- A relationship is skipped if one of its ends is not among the entities of the bundle.
def importRelationship (tx : ImportTx) (rel : MappedRelationship) : Except ImportError ImportTx :=
  match tx.stixToEntity rel.sourceRef, tx.stixToEntity rel.targetRef with
  | some source, some target => do
    let (relId, db) ← w.upsertRelationship tx.db source rel.relationshipType target ctx.now
    let db ← storage <|
      db.putProvenance (w.claimOf ctx tx.claims relId (relationshipMetadata rel))
    let fact : RelationshipFact :=
      { relationshipId   := relId
        sourceObjectId   := source
        targetObjectId   := target
        relationshipType := rel.relationshipType }
    return { tx with
      db            := db
      claims        := tx.claims + 1
      relationships := tx.relationships ++ [fact] }
  | _, _ => return { tx with skippedRelationships := tx.skippedRelationships + 1 }

-- The transaction. It is committed as a whole or not at all.
def importPlanned (db : Store) (planned : PlannedBundle) : Except ImportError ImportTx := do
  let tx ← planned.entities.foldlM (w.importEntity ctx) { db }
  planned.relationships.foldlM (w.importRelationship ctx) tx

def importBundle (db : Store) (bundle : StixBundle) : Except ImportError ImportTx := do
  let planned ← w.planBundle bundle
  w.importPlanned ctx db planned

end Loops

def report (tx : ImportTx) (planned : PlannedBundle) : ImportReport where
  entityCount          := tx.writtenEntities.length
  relationshipCount    := tx.relationships.length
  skippedObjects       := planned.skippedObjects
  skippedRelationships := tx.skippedRelationships

-- `blobOf` is what the object storage holds for a piece of evidence.
def runImport (db : Store) (blobOf : RawEvidenceId → Option Json) (rawEvidenceId : RawEvidenceId)
    (now : Timestamp) (claimId : Nat → ProvenanceId) : Except ImportError (ImportReport × Store) :=
  match db.getRawEvidence rawEvidenceId, blobOf rawEvidenceId with
  | none, _                  => .error <| .evidenceNotFound rawEvidenceId
  | _, none                  => .error <| .blobMissing rawEvidenceId
  | some evidence, some blob =>
    match StixBundle.decode w.time blob with
    | none        => .error .bundleParse
    | some bundle => do
      let planned ← w.planBundle bundle
      let ctx : ImportContext := { sourceId := evidence.sourceId, rawEvidenceId, now, claimId }
      let tx ← w.importPlanned ctx db planned
      return (report tx planned, tx.db)

end StixWorker

end Stix
