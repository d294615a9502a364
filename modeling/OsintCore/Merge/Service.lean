import OsintCore.Merge.Collision
import OsintCore.Storage.Store

inductive MergeError
  | entityNotFound (entityId : EntityId)
  | selfMerge (entityId : EntityId)
  | typeMismatch (survivorType mergedType : EntityType)
  | alreadyMerged (entityId mergedInto : EntityId)
  | historyNotFound (id : MergeHistoryId)
  | alreadyUndone (id : MergeHistoryId) (undoneAt : Timestamp)
  | survivorLaterMerged (entityId mergedInto : EntityId)
  | collectionTruncated (collection : String) (id : Uuid) (cap : Nat)
  | referenceMissing (table : String) (rowId : Uuid) (column : String)
  | unknownReferenceTable (table : String) (rowId : Uuid)
  | unknownReferenceColumn (table : String) (rowId : Uuid) (column : String)
  | missingAbsorberSnapshot (id : MergeHistoryId) (absorberId : RelationshipId)
  | storage (e : StorageError)
  deriving DecidableEq

namespace Merge

-- The limit of every collecting query. It equals what the store returns at most.
def mergeRefCap : Nat := 100

inductive ChangeKind
  | upserted
  | deleted
  deriving DecidableEq

-- The content of a `relationship.changed` event, published after the transaction has committed.
structure RelationshipChange where
  relationshipId   : Uuid
  sourceObjectId   : Uuid
  targetObjectId   : Uuid
  relationshipType : RelationshipType
  changeKind       : ChangeKind
  deriving DecidableEq

def RelationshipChange.fromRelationship (rel : Relationship) (kind : ChangeKind) :
    RelationshipChange where
  relationshipId   := rel.id
  sourceObjectId   := rel.sourceObjectId
  targetObjectId   := rel.targetObjectId
  relationshipType := rel.relationshipType
  changeKind       := kind

def storage {α : Type} (x : Except StorageError α) : Except MergeError α :=
  x.mapError .storage

def orThrow {α : Type} (x : Option α) (e : MergeError) : Except MergeError α :=
  match x with
  | some a => .ok a
  | none   => .error e

-- As many rows as the limit may be a truncated listing, so they are refused, too.
def rejectTruncated {α : Type} (collection : String) (id : Uuid) (rows : List α) :
    Except MergeError (List α) :=
  if rows.length ≥ mergeRefCap then
    .error (.collectionTruncated collection id mergeRefCap)
  else
    .ok rows

-- The state of a merge transaction: the database and what the loops have collected so far.
structure Tx where
  db                  : Store
  repointedReferences : List RepointedReference := []
  mergedRelationships : List MergedRelationship := []
  changes             : List RelationshipChange := []

namespace Tx

def deleteSelfLoop (tx : Tx) (rel : Relationship) : Tx where
  db                  := tx.db.deleteRelationship rel.id
  repointedReferences := tx.repointedReferences
  changes             := tx.changes ++ [.fromRelationship rel .deleted]
  mergedRelationships := tx.mergedRelationships ++ [{
    absorbedRelationshipId := rel.id
    absorberRelationshipId := none
    absorbedSnapshot       := rel
    absorberPreMerge       := none
    movedEvidenceIds       := [] }]

def absorbedInto (absorbed absorber : Relationship) (now : Timestamp) : Relationship :=
  { absorber with
    evidenceCount := absorber.evidenceCount + absorbed.evidenceCount
    confidence    := max absorber.confidence absorbed.confidence
    firstSeen     := min absorber.firstSeen absorbed.firstSeen
    lastSeen      := max absorber.lastSeen absorbed.lastSeen
    updatedAt     := now }

def snapshotOf (absorber : Relationship) : AbsorberSnapshot where
  evidenceCount := absorber.evidenceCount
  confidence    := absorber.confidence
  firstSeen     := absorber.firstSeen
  lastSeen      := absorber.lastSeen

def moveEvidence (absorberId : RelationshipId) (db : Store) (ev : RelationshipEvidence) :
    Except MergeError Store :=
  storage <| db.putRelationshipEvidence { ev with relationshipId := absorberId }

def absorbCollision (now : Timestamp) (tx : Tx) (c : Collision) : Except MergeError Tx := do
  let evidence ← rejectTruncated "relationship_evidence" c.absorbed.id
    (tx.db.listRelationshipEvidence c.absorbed.id mergeRefCap)
  let db ← evidence.foldlM (moveEvidence c.absorber.id) tx.db
  let updatedAbsorber := absorbedInto c.absorbed c.absorber now
  let db ← storage <| db.putRelationship updatedAbsorber
  return {
    db                  := db.deleteRelationship c.absorbed.id
    repointedReferences := tx.repointedReferences
    changes             := tx.changes ++
      [.fromRelationship c.absorbed .deleted, .fromRelationship updatedAbsorber .upserted]
    mergedRelationships := tx.mergedRelationships ++ [{
      absorbedRelationshipId := c.absorbed.id
      absorberRelationshipId := some c.absorber.id
      absorbedSnapshot       := c.absorbed
      absorberPreMerge       := some (snapshotOf c.absorber)
      movedEvidenceIds       := evidence.map (·.id) }] }

def repointRelationship (mergedId survivorId : EntityId) (now : Timestamp) (tx : Tx)
    (rel : Relationship) : Except MergeError Tx := do
  let column ← orThrow (relationshipRepointColumn rel mergedId) <|
    .unknownReferenceColumn "relationships" rel.id "source_object_id/target_object_id"
  let ends := repointedEnds rel mergedId survivorId
  let updated := { rel with
    sourceObjectId := ends.fst
    targetObjectId := ends.snd
    updatedAt      := now }
  let db ← storage <| tx.db.putRelationship updated
  return { tx with
    db
    changes             := tx.changes ++ [.fromRelationship updated .upserted]
    repointedReferences := tx.repointedReferences ++
      [repointed "relationships" rel.id column mergedId] }

def repointAlias (mergedId survivorId : EntityId) (tx : Tx) (a : EntityAlias) :
    Except MergeError Tx := do
  let db ← storage <| tx.db.putEntityAlias { a with entityId := survivorId }
  return { tx with
    db
    repointedReferences := tx.repointedReferences ++
      [repointed "entity_aliases" a.id "entity_id" mergedId] }

def repointIdentifier (mergedId survivorId : EntityId) (tx : Tx) (i : EntityIdentifier) :
    Except MergeError Tx := do
  let db ← storage <| tx.db.putEntityIdentifier { i with entityId := survivorId }
  return { tx with
    db
    repointedReferences := tx.repointedReferences ++
      [repointed "entity_identifiers" i.id "entity_id" mergedId] }

def repointExtraction (mergedId survivorId : EntityId) (tx : Tx) (x : EntityExtraction) :
    Except MergeError Tx := do
  let db ← storage <| tx.db.putEntityExtraction { x with entityId := survivorId }
  return { tx with
    db
    repointedReferences := tx.repointedReferences ++
      [repointed "entity_extractions" x.id "entity_id" mergedId] }

end Tx

-- What a caller passes along with the two entities, the id of the new history, and the clock.
structure Context where
  reason   : String
  operator : String
  audit    : Option Json
  id       : MergeHistoryId
  now      : Timestamp

def executeInTx (db : Store) (survivor merged : Entity) (ctx : Context) :
    Except MergeError (Store × MergeHistory × List RelationshipChange) := do
  let mergedRels ← rejectTruncated "relationships(merged)" merged.id
    (db.listRelationshipsByObject merged.id mergeRefCap)
  let survivorRels ← rejectTruncated "relationships(survivor)" survivor.id
    (db.listRelationshipsByObject survivor.id mergeRefCap)
  let mergedAliases ← rejectTruncated "entity_aliases" merged.id
    (db.listEntityAliasesByEntity merged.id mergeRefCap)
  let mergedIdentifiers ← rejectTruncated "entity_identifiers" merged.id
    (db.listEntityIdentifiersByEntity merged.id mergeRefCap)
  let mergedExtractions ← rejectTruncated "entity_extractions" merged.id
    (db.listEntityExtractionsByEntity merged.id mergeRefCap)
  let classified := classifyRelationships mergedRels survivorRels merged.id survivor.id
  let tx := classified.selfLoops.foldl Tx.deleteSelfLoop { db }
  let tx ← classified.collisions.foldlM (Tx.absorbCollision ctx.now) tx
  let tx ← classified.safeRepoints.foldlM (Tx.repointRelationship merged.id survivor.id ctx.now) tx
  let tx ← mergedAliases.foldlM (Tx.repointAlias merged.id survivor.id) tx
  let tx ← mergedIdentifiers.foldlM (Tx.repointIdentifier merged.id survivor.id) tx
  let tx ← mergedExtractions.foldlM (Tx.repointExtraction merged.id survivor.id) tx
  let db ← storage <| tx.db.putEntity { merged with mergedInto := some survivor.id }
  let history := {
    id                  := ctx.id
    survivorId          := survivor.id
    mergedId            := merged.id
    reason              := ctx.reason
    operator            := ctx.operator
    timestamp           := ctx.now
    repointedReferences := tx.repointedReferences
    mergedRelationships := tx.mergedRelationships
    undoneAt            := none
    autoApprovalAudit   := ctx.audit }
  let db ← storage <| db.putMergeHistory history
  return (db, history, tx.changes)

def requireEntity (db : Store) (id : EntityId) : Except MergeError Entity :=
  orThrow (db.getEntity id) (.entityNotFound id)

-- The checks on the two entities which `executeMergeWithAudit` makes before its transaction.
def checkEntities (survivor merged : Entity) : Except MergeError Unit :=
  if survivor.entityType ≠ merged.entityType then
    .error (.typeMismatch survivor.entityType merged.entityType)
  else match merged.mergedInto, survivor.mergedInto with
    | some into, _    => .error (.alreadyMerged merged.id into)
    | none, some into => .error (.alreadyMerged survivor.id into)
    | none, none      => .ok ()

def executeMergeWithAudit (db : Store) (survivorId mergedId : EntityId) (ctx : Context) :
    Except MergeError (Store × MergeHistory × List RelationshipChange) := do
  if survivorId = mergedId then
    throw (.selfMerge survivorId)
  let survivor ← requireEntity db survivorId
  let merged ← requireEntity db mergedId
  checkEntities survivor merged
  executeInTx db survivor merged ctx

def executeMerge (db : Store) (survivorId mergedId : EntityId) (reason operator : String)
    (id : MergeHistoryId) (now : Timestamp) :
    Except MergeError (Store × MergeHistory × List RelationshipChange) :=
  executeMergeWithAudit db survivorId mergedId { reason, operator, audit := none, id, now }

end Merge
