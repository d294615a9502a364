import OsintCore.Control.Resumption
import OsintCore.Objects.Text
import OsintCore.Storage.Store

structure ExtractionInput where
  text          : String
  author        : Option String
  organizations : List String

-- The end of a derived relationship from which the other end was derived.
structure DerivedLink where
  entityType     : EntityType
  normalizedName : String
  deriving DecidableEq

structure Extracted where
  entityType     : EntityType
  name           : String
  normalizedName : String
  extractor      : String
  confidence     : Confidence
  textOffset     : Option Int32
  excerpt        : Option String
  attributes     : List (String × Json)
  derivedFrom    : Option DerivedLink

abbrev NaturalKey := EntityType × String

def Extracted.naturalKey (item : Extracted) : NaturalKey :=
  (item.entityType, item.normalizedName)

def DerivedLink.naturalKey (link : DerivedLink) : NaturalKey :=
  (link.entityType, link.normalizedName)

structure ExtractionResult where
  items           : List Extracted
  truncated       : Bool
  totalCandidates : Nat

structure ExtractionBounds where
  maxExtractions : Nat
  maxScanBytes   : Nat

inductive EntityWorkerError
  | storage (e : StorageError)
  | entityConflict (entityType : EntityType) (normalizedName : String)
  deriving DecidableEq

inductive ExtractOutcome
  | extracted (documentId : DocumentId) (entityCount extractionCount relationshipCount : Nat)
    (truncated : Bool)
  | skippedDuplicate (documentId : DocumentId)
  | alreadyDone (documentId : DocumentId)
  | documentMissing (documentId : DocumentId)
  deriving DecidableEq

-- The extractors themselves and the UUID library are parameters of the worker.
structure EntityWorker where
  bounds           : ExtractionBounds
  extractAll       : ExtractionInput → ExtractionBounds → ExtractionResult
  newV5            : V5Name → Uuid
  parseUuid        : String → Option Uuid
  extractorVersion : String := "2"
  processorVersion : String

namespace EntityWorker

abbrev M := Resumption Store EntityWorkerError

variable (w : EntityWorker)

def entityId (entityType : EntityType) (normalizedName : String) : EntityId :=
  w.newV5 (.entity entityType normalizedName)

def relationshipId (source : ObjectId) (relationshipType : RelationshipType) (target : ObjectId) :
    RelationshipId :=
  w.newV5 (.relationship source relationshipType target)

def relEvidenceId (relationshipId : RelationshipId) (objectId : ObjectId)
    (textOffset : Option Int32) : RelationshipEvidenceId :=
  w.newV5 (.relationshipEvidence relationshipId objectId textOffset)

def extractionId (objectId : ObjectId) (entityId : EntityId) (extractor : String)
    (textOffset : Option Int32) : EntityExtractionId :=
  w.newV5 (.extraction objectId entityId extractor textOffset)

def identifierId («namespace» : String) (entityId : EntityId) (normalizedName : String) :
    EntityIdentifierId :=
  w.newV5 (.identifier «namespace» entityId normalizedName)

def put (f : Store → Except StorageError Store) : M Unit :=
  .write fun σ => (f σ).mapError .storage

section Input

def organizationFields : List String :=
  ["publisher", "organization", "organisation", "vendor", "feed_title", "site_name"]

-- Nothing is appended once the limit is reached.
def appendPart (maxScanBytes : Nat) (text part : String) : String :=
  let remaining := maxScanBytes - text.utf8ByteSize
  if remaining = 0 then text else text ++ Text.truncateOnCharBoundary part remaining ++ "\n"

def extractionInput (document : Document) (bounds : ExtractionBounds) : ExtractionInput where
  text := [document.title, document.summary, document.body].reduceOption.foldl
    (appendPart bounds.maxScanBytes) ""
  author        := document.author
  organizations := organizationFields.filterMap fun field =>
    document.attributes.get field >>= Json.asStr

def rawEvidenceIdOf (document : Document) : Option RawEvidenceId :=
  document.attributes.get "raw_evidence_id" >>= Json.asStr >>= w.parseUuid

def sourceIdOfRaw (rawEvidenceId : Option RawEvidenceId) : M (Option SourceId) :=
  .read fun σ => rawEvidenceId >>= σ.getRawEvidence |>.map RawEvidence.sourceId

end Input

section Identifiers

def identifierNamespaceFor : EntityType → Option String
  | .domain        => some "domain"
  | .ip            => some "ip"
  | .url           => some "url"
  | .email         => some "email"
  | .vulnerability => some "cve"
  | _              => none

def accountHandleFromNormalizedName (normalizedName : String) : Option String := do
  let handle := Text.trim (← Text.afterFirst ':' normalizedName)
  if handle = "" then none else some (Text.toAsciiLowercase handle)

def accountNamespace : String → Option String
  | "github"   => some "github_handle"
  | "twitter"  => some "twitter_handle"
  | "telegram" => some "telegram_handle"
  | _          => none

def accountIdentifierFields (entity : Entity) : Option (String × String × String) := do
  let «namespace» ← accountNamespace (← entity.attributes.get "platform" >>= Json.asStr)
  let handle ← (entity.attributes.get "handle" >>= Json.asStr).map Text.toAsciiLowercase <|>
    accountHandleFromNormalizedName entity.normalizedName
  if handle = "" then none else some («namespace», entity.name, handle)

def identifierWriteSpec (entity : Entity) : Option (String × String × String) :=
  if entity.entityType = .account then
    accountIdentifierFields entity
  else
    (identifierNamespaceFor entity.entityType).map (·, entity.name, entity.normalizedName)

-- Whether or not the identifier is written, the extraction goes on: a refusal is only logged, and a
-- conflict reported as a candidate to the resolver, whose tables are not part of the store here.
def writeIdentifierIfApplicable (entity : Entity) (sourceId : Option SourceId) : M Unit :=
  match identifierWriteSpec entity with
  | none => return
  | some («namespace», value, normalizedValue) => do
    let _ ← Resumption.attempt (·.putEntityIdentifier {
      id              := w.identifierId «namespace» entity.id normalizedValue
      entityId        := entity.id
      «namespace»     := «namespace»
      value           := value
      normalizedValue := normalizedValue
      confidence      := entity.confidence
      sourceId        := sourceId
      firstSeen       := entity.firstSeen
      lastSeen        := entity.lastSeen })
    return

end Identifiers

section Entities

def mergedAttributes (existing : Option Entity) (item : Extracted) : Json :=
  .object <| item.attributes.foldl (fun fields (name, value) => Json.insert fields name value) <|
    (existing >>= (·.attributes.asObject)).getD []

-- The mark of a merge is kept: writing `none` would bring a merged entity back to life.
def upserted (existing : Option Entity) (item : Extracted) (now : Timestamp) : Entity where
  id             := existing.elim (w.entityId item.entityType item.normalizedName) (·.id)
  entityType     := item.entityType
  name           := existing.elim item.name (·.name)
  normalizedName := item.normalizedName
  description    := existing >>= (·.description)
  confidence     := existing.elim item.confidence (max ·.confidence item.confidence)
  firstSeen      := existing.elim now (·.firstSeen)
  lastSeen       := now
  mergedInto     := existing >>= (·.mergedInto)
  attributes     := mergedAttributes existing item

def upsertEntity (item : Extracted) (now : Timestamp) (sourceId : Option SourceId) : M EntityId := do
  let existing ← .read (·.findEntityByNormalizedName item.entityType item.normalizedName)
  let entity := w.upserted existing item now
  let persisted ← match ← Resumption.attempt (·.putEntity entity) with
    | .ok () => pure entity
    | .error .conflict => do
      match ← .read (·.findEntityByNormalizedName item.entityType item.normalizedName) with
      | some owner => pure owner
      | none       => .fail (.entityConflict item.entityType item.normalizedName)
    | .error e => .fail (.storage e)
  w.writeIdentifierIfApplicable persisted sourceId
  return persisted.id

end Entities

-- What is fixed while a document is processed.
structure Context where
  document      : Document
  rawEvidenceId : Option RawEvidenceId
  sourceId      : Option SourceId
  now           : Timestamp

variable (ctx : Context)

def extractionOf (entityId : EntityId) (item : Extracted) : EntityExtraction where
  id               := w.extractionId ctx.document.id entityId item.extractor item.textOffset
  objectId         := ctx.document.id
  entityId         := entityId
  extractor        := item.extractor
  extractorVersion := w.extractorVersion
  confidence       := item.confidence
  textOffset       := item.textOffset
  excerpt          := item.excerpt

def writeExtraction (entityId : EntityId) (item : Extracted) : M Unit :=
  put (·.putEntityExtraction (w.extractionOf ctx entityId item))

section Relationships

-- A relationship which the document is evidence for.
structure Edge where
  source           : ObjectId
  relationshipType : RelationshipType
  target           : ObjectId
  item             : Extracted

def edgeId (e : Edge) : RelationshipId :=
  w.relationshipId e.source e.relationshipType e.target

-- The evidence is counted only after it has been written.
def upsertedRelationship (existing : Option Relationship) (e : Edge) (now : Timestamp) :
    Relationship where
  id               := w.edgeId e
  sourceObjectId   := e.source
  relationshipType := e.relationshipType
  targetObjectId   := e.target
  confidence       := existing.elim e.item.confidence (max ·.confidence e.item.confidence)
  firstSeen        := existing.elim now (·.firstSeen)
  lastSeen         := now
  evidenceCount    := 0
  createdAt        := existing.elim now (·.createdAt)
  updatedAt        := now

def upsertRelationship (e : Edge) (now : Timestamp) : M RelationshipId := do
  let existing ← .read (·.getRelationship (w.edgeId e))
  put (·.putRelationship (w.upsertedRelationship existing e now))
  return w.edgeId e

-- It equals what the store returns at most: beyond it, the count stays where it is.
def evidenceCountLimit : Nat := 100

def evidenceOf (relationshipId : RelationshipId) (item : Extracted) : RelationshipEvidence where
  id             := w.relEvidenceId relationshipId ctx.document.id item.textOffset
  relationshipId := relationshipId
  objectId       := ctx.document.id
  rawEvidenceId  := ctx.rawEvidenceId
  excerpt        := item.excerpt
  confidence     := item.confidence
  createdAt      := ctx.now

def counted (r : Relationship) (count : Int32) (now : Timestamp) : Relationship :=
  { r with
    evidenceCount := count
    updatedAt     := now }

def writeRelationshipEvidence (relationshipId : RelationshipId) (item : Extracted) : M Unit := do
  put (·.putRelationshipEvidence (w.evidenceOf ctx relationshipId item))
  let rows ← .read (·.listRelationshipEvidence relationshipId evidenceCountLimit)
  let count := Int32.ofNat rows.length
  match ← .read (·.getRelationship relationshipId) with
  | none   => return
  | some r => if r.evidenceCount ≠ count then put (·.putRelationship (counted r count ctx.now))

def writeEdge (e : Edge) : M RelationshipId := do
  let relationshipId ← w.upsertRelationship e ctx.now
  w.writeRelationshipEvidence ctx relationshipId e.item
  return relationshipId

end Relationships

section Loops

def mentionRelationshipType (item : Extracted) : RelationshipType :=
  match item.entityType with
  | .person       => .authoredBy
  | .organization => .publishedBy
  | .url          => .references
  | _             => .mentions

def derivedRelationshipType (link : DerivedLink) : RelationshipType :=
  match link.entityType with
  | .url => .belongsTo
  | _    => .associatedWith

def mentionEdge (item : Extracted) (entityId : EntityId) : Edge where
  source           := ctx.document.id
  relationshipType := mentionRelationshipType item
  target           := entityId
  item             := item

structure RelationshipFact where
  sourceObjectId   : ObjectId
  relationshipType : RelationshipType
  targetObjectId   : ObjectId

def Edge.fact (e : Edge) : RelationshipFact where
  sourceObjectId   := e.source
  relationshipType := e.relationshipType
  targetObjectId   := e.target

-- What the two loops collect. The maps list their entries.
structure Progress where
  entityIds       : List (NaturalKey × EntityId)             := []
  extractionCount : Nat                                      := 0
  relationships   : List (RelationshipId × RelationshipFact) := []

def Progress.insertRelationship (p : Progress) (id : RelationshipId) (fact : RelationshipFact) :
    Progress :=
  { p with relationships := (id, fact) :: p.relationships.filter (·.fst ≠ id) }

-- An entity which the document names several times is written only once.
def resolveEntity (p : Progress) (item : Extracted) : M (EntityId × Progress) :=
  match p.entityIds.lookup item.naturalKey with
  | some id => return (id, p)
  | none    => do
    let id ← w.upsertEntity item ctx.now ctx.sourceId
    return (id, { p with entityIds := (item.naturalKey, id) :: p.entityIds })

def mention (p : Progress) (item : Extracted) : M Progress := do
  let (entityId, p) ← w.resolveEntity ctx p item
  w.writeExtraction ctx entityId item
  let p := { p with extractionCount := p.extractionCount + 1 }
  let edge := mentionEdge ctx item entityId
  let id ← w.writeEdge ctx edge
  return p.insertRelationship id edge.fact

-- The edge from the end from which an item was derived, unless the limit has cut that end off.
def derivedEdge (entityIds : List (NaturalKey × EntityId)) (item : Extracted) : Option Edge := do
  let link ← item.derivedFrom
  let target ← entityIds.lookup item.naturalKey
  let source ← entityIds.lookup link.naturalKey
  return { source, relationshipType := derivedRelationshipType link, target, item }

def derive (p : Progress) (item : Extracted) : M Progress :=
  match derivedEdge p.entityIds item with
  | none      => return p
  | some edge => do
    let id ← w.writeEdge ctx edge
    return p.insertRelationship id edge.fact

end Loops

section Document

def processor : String := "entity-worker"

def claimOf (result : ExtractionResult) (p : Progress) (claimId : ProvenanceId) : Provenance where
  id               := claimId
  subjectId        := ctx.document.id
  action           := actionEntityExtracted
  parentId         := ctx.rawEvidenceId
  rawEvidenceId    := ctx.rawEvidenceId
  processor        := processor
  processorVersion := w.processorVersion
  timestamp        := ctx.now
  metadata         := .object [
    ("entity_count", .number p.entityIds.length),
    ("extraction_count", .number p.extractionCount),
    ("relationship_count", .number p.relationships.length),
    ("truncated", .bool result.truncated),
    ("total_candidates", .number result.totalCandidates),
    ("extractor_version", .string w.extractorVersion),
    ("max_extractions", .number w.bounds.maxExtractions),
    ("max_scan_bytes", .number w.bounds.maxScanBytes)]

def alreadyClaimed (documentId : DocumentId) : M Bool :=
  .read fun σ => σ.listProvenanceBySubject documentId |>.any (·.action = actionEntityExtracted)

-- A document is claimed only after everything has been written. The events which are published
-- afterwards are left out.
def extract (claimId : ProvenanceId) : M ExtractOutcome := do
  let result := w.extractAll (extractionInput ctx.document w.bounds) w.bounds
  let p ← result.items.foldlM (w.mention ctx) {}
  let p ← result.items.foldlM (w.derive ctx) p
  match ← Resumption.attempt (·.putProvenance (w.claimOf ctx result p claimId)) with
  | .ok () =>
    return .extracted ctx.document.id p.entityIds.length p.extractionCount p.relationships.length
      result.truncated
  | .error .conflict => return .alreadyDone ctx.document.id
  | .error e         => .fail (.storage e)

def extractDocument (documentId : DocumentId) (now : Timestamp) (claimId : ProvenanceId) :
    M ExtractOutcome := do
  if ← alreadyClaimed documentId then
    return .alreadyDone documentId
  match ← .read (·.getDocument documentId) with
  | none          => return .documentMissing documentId
  | some document =>
    if document.duplicateOf.isSome then
      return .skippedDuplicate documentId
    let rawEvidenceId := w.rawEvidenceIdOf document
    let sourceId ← sourceIdOfRaw rawEvidenceId
    w.extract { document, rawEvidenceId, sourceId, now } claimId

end Document

end EntityWorker
