import OsintCore.Api.Pagination
import OsintCore.Control.Resumption
import OsintCore.Projection.GraphStore
import OsintCore.Storage.Store

inductive ChangeKind
  | upserted | deleted
  deriving DecidableEq, Repr

structure ParsedChange where
  relationshipId : RelationshipId
  sourceObjectId : ObjectId
  targetObjectId : ObjectId
  kind           : ChangeKind
  deriving DecidableEq

inductive GraphWorkerError
  | storage (error : GraphStoreError)
  | missingField (field : String)
  | invalidChangeKind (got : String)
  deriving DecidableEq, Repr

inductive ProcessOutcome
  | applied (relationshipId : RelationshipId) (lastSeen : Timestamp)
  | skippedNonEntity (relationshipId : RelationshipId)
  | skippedRace (relationshipId : RelationshipId)
  | deleted (relationshipId : RelationshipId)
  deriving DecidableEq

-- `snake_case`, as the columns of the store and the requests of the API.
def EntityType.text : EntityType → String
  | person        => "person"
  | organization  => "organization"
  | account       => "account"
  | domain        => "domain"
  | hostname      => "hostname"
  | ip            => "ip"
  | url           => "url"
  | email         => "email"
  | vulnerability => "vulnerability"
  | software      => "software"
  | product       => "product"
  | repository    => "repository"
  | hash          => "hash"
  | location      => "location"
  | threatActor   => "threat_actor"
  | malware       => "malware"
  | indicator     => "indicator"

def RelationshipType.text : RelationshipType → String
  | mentions       => "mentions"
  | references     => "references"
  | publishedBy    => "published_by"
  | authoredBy     => "authored_by"
  | linksTo        => "links_to"
  | affects        => "affects"
  | belongsTo      => "belongs_to"
  | memberOf       => "member_of"
  | owns           => "owns"
  | uses           => "uses"
  | locatedAt      => "located_at"
  | associatedWith => "associated_with"
  | derivedFrom    => "derived_from"
  | indicates      => "indicates"
  | attributedTo   => "attributed_to"
  | targets        => "targets"
  | mitigates      => "mitigates"

def ChangeKind.asStr : ChangeKind → String
  | upserted => "upserted"
  | deleted  => "deleted"

-- The payload of a `relationship.changed` event.
def relationshipChanged (rel : Relationship) (kind : ChangeKind) : Json :=
  .object [
    ("relationship_id",   .string (Uuid.toText rel.id)),
    ("source_object_id",  .string (Uuid.toText rel.sourceObjectId)),
    ("target_object_id",  .string (Uuid.toText rel.targetObjectId)),
    ("relationship_type", .string rel.relationshipType.text),
    ("change_kind",       .string kind.asStr)]

def requiredUuid (payload : Json) (field : String) : Except GraphWorkerError Uuid :=
  match payload.get field >>= Json.asStr >>= Uuid.parseStr with
  | some id => .ok id
  | none    => .error (.missingField field)

-- The type of the relationship is not read, the one in the store counts.
def parseChange (payload : Json) : Except GraphWorkerError ParsedChange := do
  let relationshipId ← requiredUuid payload "relationship_id"
  let sourceObjectId ← requiredUuid payload "source_object_id"
  let targetObjectId ← requiredUuid payload "target_object_id"
  match payload.get "change_kind" >>= Json.asStr with
  | some "upserted" => return { relationshipId, sourceObjectId, targetObjectId, kind := .upserted }
  | some "deleted"  => return { relationshipId, sourceObjectId, targetObjectId, kind := .deleted }
  | some other      => .error (.invalidChangeKind other)
  | none            => .error (.missingField "change_kind")

def graphNode (entity : Entity) : GraphNode where
  entityId    := entity.id
  entityType  := entity.entityType.text
  displayName := entity.name
  attributes  := entity.attributes

def graphEdge (rel : Relationship) : GraphEdge where
  relationshipId   := rel.id
  source           := rel.sourceObjectId
  target           := rel.targetObjectId
  relationshipType := rel.relationshipType.text
  confidence       := rel.confidence
  firstSeen        := rel.firstSeen
  lastSeen         := rel.lastSeen

abbrev GraphWriting := Resumption GraphStore GraphWorkerError

-- Which writes of a call fail because of the backend.
abbrev Faults := Nat → Bool

def writeGraph (faulty : Bool) (write : GraphStore → Except GraphStoreError GraphStore) :
    GraphWriting Unit :=
  .write fun g => (if faulty then .error .unavailable else write g) |>.mapError .storage

-- Both ends must be entities.
def applyRelationship (σ : Store) (faults : Faults) (rel : Relationship) :
    GraphWriting ProcessOutcome :=
  match σ.getEntity rel.sourceObjectId, σ.getEntity rel.targetObjectId with
  | some source, some target => do
    writeGraph (faults 0) (·.upsertNode (graphNode source))
    writeGraph (faults 1) (·.upsertNode (graphNode target))
    writeGraph (faults 2) (·.upsertEdge (graphEdge rel))
    return .applied rel.id rel.lastSeen
  | _, _ => return .skippedNonEntity rel.id

-- What an event says only counts if it is about a deletion.
def applyChange (σ : Store) (faults : Faults) (parsed : ParsedChange) :
    GraphWriting ProcessOutcome :=
  match parsed.kind with
  | .deleted => do
    writeGraph (faults 0) (·.deleteEdge parsed.relationshipId)
    return .deleted parsed.relationshipId
  | .upserted =>
    match σ.getRelationship parsed.relationshipId with
    | none => do
      writeGraph (faults 0) (·.deleteEdge parsed.relationshipId)
      return .skippedRace parsed.relationshipId
    | some rel => applyRelationship σ faults rel

def processChange (σ : Store) (faults : Faults) (payload : Json) : GraphWriting ProcessOutcome :=
  match parseChange payload with
  | .error e   => .fail e
  | .ok parsed => applyChange σ faults parsed

def Store.listRelationships (σ : Store) (after : Option RelationshipId) (limit : Nat) :
    List Relationship :=
  σ.relationships.page (fun _ => true) after (clampLimit limit)

structure RebuildOptions where
  dropGraph : Bool := false
  pageSize  : Nat  := 100

structure RebuildReport where
  scanned          : Nat := 0
  applied          : Nat := 0
  skippedNonEntity : Nat := 0
  failed           : Nat := 0
  deriving DecidableEq

section

variable (σ : Store) (faults : RelationshipId → Faults)

-- One row of a page. A failure is counted, and what has been written so far stays.
def rebuildRow : RebuildReport × GraphStore → Relationship → RebuildReport × GraphStore
  | (report, g), rel =>
    let report := { report with scanned := report.scanned + 1 }
    match (applyRelationship σ (faults rel.id) rel).run g with
    | (.ok (.applied ..), g)          => ({ report with applied := report.applied + 1 }, g)
    | (.ok (.skippedNonEntity _), g)  =>
      ({ report with skippedNonEntity := report.skippedNonEntity + 1 }, g)
    | (.ok (.deleted _), g)
    | (.ok (.skippedRace _), g)       => (report, g)
    | (.error _, g)                   => ({ report with failed := report.failed + 1 }, g)

def rebuildLoop (pageSize : Nat) : Nat → Option RelationshipId → RebuildReport × GraphStore →
    Option (RebuildReport × GraphStore)
  | 0, _, _               => none
  | fuel + 1, cursor, acc =>
    let page := σ.listRelationships cursor pageSize
    match page.getLast? with
    | none      => some acc
    | some last =>
      let acc := page.foldl (rebuildRow σ faults) acc
      if page.length < pageSize then some acc
      else rebuildLoop pageSize fuel (some last.id) acc

def rebuildPages (options : RebuildOptions) (g : GraphStore) (fuel : Nat) :
    Option (RebuildReport × GraphStore) :=
  rebuildLoop σ faults (max 1 (min options.pageSize 100)) fuel none ({}, g)

def rebuild (options : RebuildOptions) (g : GraphStore) (fuel : Nat) :
    Option (RebuildReport × GraphStore) :=
  let g := if options.dropGraph then .wipe else g
  rebuildPages σ faults options g fuel

end
