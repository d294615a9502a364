import OsintCore.Objects.Graph
import OsintCore.Objects.Document

-- The provenance actions which a unique index covers.
def actionEntityExtracted : String := "entity_extracted"
def actionDeduplicated : String := "deduplicated"

-- The tables of the canonical store.
@[ext]
structure Tables where
  entities             : Table Entity               := ∅
  entityAliases        : Table EntityAlias          := ∅
  entityIdentifiers    : Table EntityIdentifier     := ∅
  entityExtractions    : Table EntityExtraction     := ∅
  relationships        : Table Relationship         := ∅
  relationshipEvidence : Table RelationshipEvidence := ∅
  mergeHistory         : Table MergeHistory         := ∅
  documents            : Table Document             := ∅
  provenance           : Table Provenance           := ∅
  duplicateGroups      : Table DuplicateGroup       := ∅
  rawEvidence          : Table RawEvidence          := ∅
  sources              : Table Source               := ∅

-- A state of the canonical store: its tables satisfy the constraints of the schema. An index or a
-- foreign key is named after the columns it covers.
structure Store extends Tables where
  -- idx_entities_natural_key
  entity_natural : entities.Unique (some <| Entity.naturalKey ·) := by decide
  -- idx_entity_identifiers_natural
  identifier_natural : entityIdentifiers.Unique (some <| EntityIdentifier.naturalKey ·) := by decide
  -- idx_relationships_natural_key
  relationship_natural : relationships.Unique (some <| Relationship.naturalKey ·) := by decide
  -- idx_provenance_entity_subject
  provenance_extracted : provenance.Unique (Provenance.subjectOf actionEntityExtracted) := by decide
  -- idx_provenance_dedup_subject
  provenance_deduplicated : provenance.Unique (Provenance.subjectOf actionDeduplicated) := by decide
  -- idx_duplicate_groups_member_object
  group_member : duplicateGroups.Unique DuplicateGroup.memberObjectId := by decide
  merged_into : entities.References Entity.mergedInto entities := by decide
  alias_entity : entityAliases.References (some <| EntityAlias.entityId ·) entities := by decide
  identifier_entity :
    entityIdentifiers.References (some <| EntityIdentifier.entityId ·) entities := by decide
  extraction_entity :
    entityExtractions.References (some <| EntityExtraction.entityId ·) entities := by decide
  history_survivor : mergeHistory.References (some <| MergeHistory.survivorId ·) entities := by decide
  evidence_relationship : relationshipEvidence.References
    (some <| RelationshipEvidence.relationshipId ·) relationships := by decide
  evidence_raw :
    relationshipEvidence.References RelationshipEvidence.rawEvidenceId rawEvidence := by decide
  duplicate_of : documents.References Document.duplicateOf documents := by decide
  provenance_raw : provenance.References Provenance.rawEvidenceId rawEvidence := by decide
  group_raw :
    duplicateGroups.References DuplicateGroup.memberRawEvidenceId rawEvidence := by decide

inductive StorageError
  | conflict
  | constraintViolation
  deriving DecidableEq, Repr

namespace Store

theorem ext {σ₁ σ₂ : Store} (h : σ₁.toTables = σ₂.toTables) : σ₁ = σ₂ := by
  cases σ₁; cases σ₂; cases h; rfl

-- Every `list_*` method of the store clamps its limit.
def clampLimit (limit : Nat) : Nat :=
  max 1 (min limit 100)

-- The scan for similar fingerprints has no index to use, so that it has a limit of its own.
def clampScanLimit (limit : Nat) : Nat :=
  max 1 (min limit 5000)

section Entities

variable (σ : Store)

def getEntity (id : EntityId) : Option Entity :=
  σ.entities.get? id

def findEntityByNormalizedName (type : EntityType) (name : String) : Option Entity :=
  σ.entities.rows.find? fun e => e.entityType = type ∧ e.normalizedName = name

def putEntity (e : Entity) : Except StorageError Store :=
  if hu : σ.entities.Admits (some <| Entity.naturalKey ·) e then
    if hr : ∀ i ∈ e.mergedInto, ((σ.entities.put e).get? i).isSome then
      .ok { σ with
        entities          := σ.entities.put e
        entity_natural    := σ.entity_natural.put hu
        merged_into       := σ.merged_into.put_right.put hr
        alias_entity      := σ.alias_entity.put_right
        identifier_entity := σ.identifier_entity.put_right
        extraction_entity := σ.extraction_entity.put_right
        history_survivor  := σ.history_survivor.put_right }
    else
      .error .constraintViolation
  else
    .error .conflict

def getEntityAlias (id : EntityAliasId) : Option EntityAlias :=
  σ.entityAliases.get? id

def listEntityAliasesByEntity (id : EntityId) (limit : Nat) : List EntityAlias :=
  σ.entityAliases.rows.filter (·.entityId = id) |>.take (clampLimit limit)

def putEntityAlias (a : EntityAlias) : Except StorageError Store :=
  if h : (σ.entities.get? a.entityId).isSome then
    .ok { σ with
      entityAliases := σ.entityAliases.put a
      alias_entity  := σ.alias_entity.put (by simpa using h) }
  else
    .error .constraintViolation

def getEntityIdentifier (id : EntityIdentifierId) : Option EntityIdentifier :=
  σ.entityIdentifiers.get? id

def listEntityIdentifiersByEntity (id : EntityId) (limit : Nat) : List EntityIdentifier :=
  σ.entityIdentifiers.rows.filter (·.entityId = id) |>.take (clampLimit limit)

def findEntityIdentifierOwner (ns value : String) : Option EntityIdentifier :=
  σ.entityIdentifiers.rows.find? fun i => i.namespace = ns ∧ i.normalizedValue = value

def putEntityIdentifier (i : EntityIdentifier) : Except StorageError Store :=
  if hu : σ.entityIdentifiers.Admits (some <| EntityIdentifier.naturalKey ·) i then
    if h : (σ.entities.get? i.entityId).isSome then
      .ok { σ with
        entityIdentifiers  := σ.entityIdentifiers.put i
        identifier_natural := σ.identifier_natural.put hu
        identifier_entity  := σ.identifier_entity.put (by simpa using h) }
    else
      .error .constraintViolation
  else
    .error .conflict

def getEntityExtraction (id : EntityExtractionId) : Option EntityExtraction :=
  σ.entityExtractions.get? id

def listEntityExtractionsByEntity (id : EntityId) (limit : Nat) : List EntityExtraction :=
  σ.entityExtractions.rows.filter (·.entityId = id) |>.take (clampLimit limit)

def putEntityExtraction (x : EntityExtraction) : Except StorageError Store :=
  if h : (σ.entities.get? x.entityId).isSome then
    .ok { σ with
      entityExtractions := σ.entityExtractions.put x
      extraction_entity := σ.extraction_entity.put (by simpa using h) }
  else
    .error .constraintViolation

end Entities

section Relationships

variable (σ : Store)

def getRelationship (id : RelationshipId) : Option Relationship :=
  σ.relationships.get? id

-- ORDER BY id DESC
def listRelationshipsByObject (id : ObjectId) (limit : Nat) : List Relationship :=
  σ.relationships.rows.filter (·.Touches id) |>.reverse.take (clampLimit limit)

def putRelationship (r : Relationship) : Except StorageError Store :=
  if h : σ.relationships.Admits (some <| Relationship.naturalKey ·) r then
    .ok { σ with
      relationships         := σ.relationships.put r
      relationship_natural  := σ.relationship_natural.put h
      evidence_relationship := σ.evidence_relationship.put_right }
  else
    .error .conflict

-- The foreign key of `relationship_evidence` is declared ON DELETE CASCADE.
def deleteRelationship (id : RelationshipId) : Store :=
  { σ with
    relationships        := σ.relationships.erase id
    relationshipEvidence := σ.relationshipEvidence.filter (·.relationshipId ≠ id)
    relationship_natural := σ.relationship_natural.erase
    evidence_raw         := σ.evidence_raw.filter
    evidence_relationship := by
      intro e he i hi
      simp only [Option.mem_def, Option.some.injEq] at hi
      have ⟨hm, hn⟩ := Table.mem_filter.mp he
      have := σ.evidence_relationship e hm i (by simp [hi])
      simp only [ne_eq, decide_not, Bool.not_eq_eq_eq_not, Bool.not_true, decide_eq_false_iff_not] at hn
      simp [hi ▸ Ne.symm hn, this] }

def getRelationshipEvidence (id : RelationshipEvidenceId) : Option RelationshipEvidence :=
  σ.relationshipEvidence.get? id

-- ORDER BY created_at ASC, id ASC
def listRelationshipEvidence (id : RelationshipId) (limit : Nat) : List RelationshipEvidence :=
  σ.relationshipEvidence.rows.filter (·.relationshipId = id)
    |>.insertionSort (fun a b => a.createdAt < b.createdAt ∨ a.createdAt = b.createdAt ∧ a.id ≤ b.id)
    |>.take (clampLimit limit)

def putRelationshipEvidence (e : RelationshipEvidence) : Except StorageError Store :=
  if h : (σ.relationships.get? e.relationshipId).isSome then
    if hr : ∀ i ∈ e.rawEvidenceId, (σ.rawEvidence.get? i).isSome then
      .ok { σ with
        relationshipEvidence  := σ.relationshipEvidence.put e
        evidence_relationship := σ.evidence_relationship.put (by simpa using h)
        evidence_raw          := σ.evidence_raw.put hr }
    else
      .error .constraintViolation
  else
    .error .constraintViolation

def getMergeHistory (id : MergeHistoryId) : Option MergeHistory :=
  σ.mergeHistory.get? id

def putMergeHistory (h : MergeHistory) : Except StorageError Store :=
  if hs : (σ.entities.get? h.survivorId).isSome then
    .ok { σ with
      mergeHistory     := σ.mergeHistory.put h
      history_survivor := σ.history_survivor.put (by simpa using hs) }
  else
    .error .constraintViolation

end Relationships

section Documents

variable (σ : Store)

def getDocument (id : DocumentId) : Option Document :=
  σ.documents.get? id

def putDocument (d : Document) : Except StorageError Store :=
  if h : ∀ i ∈ d.duplicateOf, ((σ.documents.put d).get? i).isSome then
    .ok { σ with
      documents    := σ.documents.put d
      duplicate_of := σ.duplicate_of.put_right.put h }
  else
    .error .constraintViolation

-- ORDER BY id ASC
def findDocumentIds (p : Document → Bool) (before : DocumentId) (limit : Nat) : List DocumentId :=
  σ.documents.rows.filter (fun d => p d ∧ d.id < before) |>.map (·.id) |>.take (clampLimit limit)

def findDocumentIdsByExternalKey (externalKey : String) : DocumentId → Nat → List DocumentId :=
  σ.findDocumentIds (·.externalKey = some externalKey)

def findDocumentIdsByCanonicalUrl (canonicalUrl : String) : DocumentId → Nat → List DocumentId :=
  σ.findDocumentIds (·.canonicalUrl = some canonicalUrl)

def findDocumentIdsByContentHash (contentHash : String) : DocumentId → Nat → List DocumentId :=
  σ.findDocumentIds (·.normalizedContentHash = some contentHash)

-- Of the last documents before the given one which have a fingerprint, those that are close to it.
def findSimhashCandidates (fingerprint : Int64) (maxDistance : Nat) (before : DocumentId)
    (scanLimit : Nat) : List SimhashCandidate :=
  σ.documents.rows.filter (·.id < before)
    |>.filterMap (fun d => d.simhash.map (SimhashCandidate.mk d.id))
    |>.reverse.take (clampScanLimit scanLimit)
    |>.filter (fun c => hammingDistance c.simhash fingerprint ≤ maxDistance)
    |>.reverse

-- ORDER BY timestamp, id
def listProvenanceBySubject (id : ObjectId) : List Provenance :=
  σ.provenance.rows.filter (·.subjectId = id)
    |>.insertionSort fun a b => a.timestamp < b.timestamp ∨ a.timestamp = b.timestamp ∧ a.id ≤ b.id

def putProvenance (p : Provenance) : Except StorageError Store :=
  if he : σ.provenance.Admits (Provenance.subjectOf actionEntityExtracted) p then
    if hd : σ.provenance.Admits (Provenance.subjectOf actionDeduplicated) p then
      if hr : ∀ i ∈ p.rawEvidenceId, (σ.rawEvidence.get? i).isSome then
        .ok { σ with
          provenance              := σ.provenance.put p
          provenance_extracted    := σ.provenance_extracted.put he
          provenance_deduplicated := σ.provenance_deduplicated.put hd
          provenance_raw          := σ.provenance_raw.put hr }
      else
        .error .constraintViolation
    else
      .error .conflict
  else
    .error .conflict

def getDuplicateGroup (id : DuplicateGroupId) : Option DuplicateGroup :=
  σ.duplicateGroups.get? id

def putDuplicateGroup (g : DuplicateGroup) : Except StorageError Store :=
  if hu : σ.duplicateGroups.Admits DuplicateGroup.memberObjectId g then
    if hr : ∀ i ∈ g.memberRawEvidenceId, (σ.rawEvidence.get? i).isSome then
      .ok { σ with
        duplicateGroups := σ.duplicateGroups.put g
        group_member    := σ.group_member.put hu
        group_raw       := σ.group_raw.put hr }
    else
      .error .constraintViolation
  else
    .error .conflict

def getRawEvidence (id : RawEvidenceId) : Option RawEvidence :=
  σ.rawEvidence.get? id

def getSource (id : SourceId) : Option Source :=
  σ.sources.get? id

end Documents

end Store
