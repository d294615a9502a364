import OsintCore.Resources.Basic

namespace Resources

structure SeedCreated where
  seedId       : SeedId
  collectionId : Option CollectionId
  seedType     : String
  value        : String
  entityId     : Option EntityId
  origin       : String
  status       : String
  priority     : Int32
  confidence   : Confidence
  depth        : Int32
  createdAt    : Timestamp

def SeedCreated.fromSeed (seed : Seed) : SeedCreated where
  seedId       := seed.id
  collectionId := seed.collectionId
  seedType     := seed.seedType.asStr
  value        := seed.value
  entityId     := seed.entityId
  origin       := seed.origin.asStr
  status       := seed.status
  priority     := seed.priority
  confidence   := seed.confidence
  depth        := seed.depth
  createdAt    := seed.createdAt

def SeedCreated.partitionKey (e : SeedCreated) : String :=
  Uuid.toText <| e.collectionId.getD e.seedId

structure OutboxEvent where
  id            : Uuid
  topic         : String
  partitionKey  : String
  correlationId : Option Uuid
  payload       : SeedCreated
  sourceService : String
  createdAt     : Timestamp
  attempts      : Int32
  lastError     : Option String
  nextAttemptAt : Timestamp
  publishedAt   : Option Timestamp

-- The tables behind the resource API. Of an entity it needs to know only that it exists.
structure ResourceStore where
  sources              : Table Source                       := ∅
  connectors           : Table Connector                    := ∅
  seeds                : Table Seed                         := ∅
  collections          : Table Collection                   := ∅
  collectionSources    : Finset (CollectionId × SourceId)    := ∅
  collectionConnectors : Finset (CollectionId × ConnectorId) := ∅
  collectionObjects    : Finset (CollectionId × ObjectId)    := ∅
  entityIds            : Finset EntityId                     := ∅
  eventOutbox          : List OutboxEvent                    := []
  auditLog             : List AuditEntry                     := []
  connector_source  : connectors.References (some <| Connector.sourceId ·) sources := by decide
  seed_collection   : seeds.References Seed.collectionId collections := by decide
  source_links      : ∀ link ∈ collectionSources,
    (collections.get? link.fst).isSome ∧ (sources.get? link.snd).isSome := by decide
  connector_links   : ∀ link ∈ collectionConnectors,
    (collections.get? link.fst).isSome ∧ (connectors.get? link.snd).isSome := by decide

-- The identifiers on one side of a link table, in their order.
def linkedIds (links : Finset Uuid) (limit : Nat) : List Uuid :=
  links.sort (· ≤ ·) |>.take (Store.clampLimit limit)

namespace ResourceStore

variable (s : ResourceStore)

def getSource (id : SourceId) : Option Source :=
  s.sources.get? id

def getConnector (id : ConnectorId) : Option Connector :=
  s.connectors.get? id

def getSeed (id : SeedId) : Option Seed :=
  s.seeds.get? id

def getCollection (id : CollectionId) : Option Collection :=
  s.collections.get? id

def collectionsOfSource (id : SourceId) : Finset CollectionId :=
  s.collectionSources.filter (·.snd = id) |>.image Prod.fst

def collectionsOfConnector (id : ConnectorId) : Finset CollectionId :=
  s.collectionConnectors.filter (·.snd = id) |>.image Prod.fst

def listCollectionsBySource (id : SourceId) : Nat → List CollectionId :=
  linkedIds <| s.collectionsOfSource id

def listCollectionsByConnector (id : ConnectorId) : Nat → List CollectionId :=
  linkedIds <| s.collectionsOfConnector id

def listCollectionSources (id : CollectionId) : Nat → List SourceId :=
  linkedIds <| s.collectionSources.filter (·.fst = id) |>.image Prod.snd

def listCollectionConnectors (id : CollectionId) : Nat → List ConnectorId :=
  linkedIds <| s.collectionConnectors.filter (·.fst = id) |>.image Prod.snd

def listCollectionObjects (id : CollectionId) : Nat → List ObjectId :=
  linkedIds <| s.collectionObjects.filter (·.fst = id) |>.image Prod.snd

-- The writes of rows are upserts: a row with the identifier is replaced.
def putSource (source : Source) : ResourceStore :=
  { s with
    sources          := s.sources.put source
    connector_source := s.connector_source.put_right
    source_links     := fun link h =>
      ⟨(s.source_links link h).left, Table.isSome_get?_put (s.source_links link h).right⟩ }

def putConnector (connector : Connector) : Except StorageError ResourceStore :=
  if h : (s.sources.get? connector.sourceId).isSome then
    .ok { s with
      connectors       := s.connectors.put connector
      connector_source := s.connector_source.put fun _ hi => by cases hi; exact h
      connector_links  := fun link h =>
        ⟨(s.connector_links link h).left, Table.isSome_get?_put (s.connector_links link h).right⟩ }
  else
    .error .constraintViolation

def putSeed (seed : Seed) : Except StorageError ResourceStore :=
  if h : ∀ id ∈ seed.collectionId, (s.collections.get? id).isSome then
    if ∀ id ∈ seed.entityId, id ∈ s.entityIds then
      .ok { s with seeds := s.seeds.put seed, seed_collection := s.seed_collection.put h }
    else
      .error .constraintViolation
  else
    .error .constraintViolation

def enqueueOutbox (event : OutboxEvent) : ResourceStore :=
  { s with eventOutbox := s.eventOutbox ++ [event] }

def putCollection (collection : Collection) : ResourceStore :=
  { s with
    collections     := s.collections.put collection
    seed_collection := s.seed_collection.put_right
    source_links    := fun link h =>
      ⟨Table.isSome_get?_put (s.source_links link h).left, (s.source_links link h).right⟩
    connector_links := fun link h =>
      ⟨Table.isSome_get?_put (s.connector_links link h).left, (s.connector_links link h).right⟩ }

-- The links are written ON CONFLICT DO NOTHING.
def linkCollectionSource (collectionId : CollectionId) (sourceId : SourceId) :
    Except StorageError ResourceStore :=
  if h : (s.collections.get? collectionId).isSome ∧ (s.sources.get? sourceId).isSome then
    .ok { s with
      collectionSources := insert (collectionId, sourceId) s.collectionSources
      source_links      := Finset.forall_mem_insert .. |>.mpr ⟨h, s.source_links⟩ }
  else
    .error .constraintViolation

def linkCollectionConnector (collectionId : CollectionId) (connectorId : ConnectorId) :
    Except StorageError ResourceStore :=
  if h : (s.collections.get? collectionId).isSome ∧ (s.connectors.get? connectorId).isSome then
    .ok { s with
      collectionConnectors := insert (collectionId, connectorId) s.collectionConnectors
      connector_links      := Finset.forall_mem_insert .. |>.mpr ⟨h, s.connector_links⟩ }
  else
    .error .constraintViolation

-- One transaction: what is written before a link is refused is rolled back.
def linkCollectionMembers (collectionId : CollectionId) (sourceIds : List SourceId)
    (connectorIds : List ConnectorId) : Except StorageError ResourceStore := do
  let s ← sourceIds.foldlM (·.linkCollectionSource collectionId ·) s
  connectorIds.foldlM (·.linkCollectionConnector collectionId ·) s

def createCollectionWithMembers (collection : Collection) (sourceIds : List SourceId)
    (connectorIds : List ConnectorId) : Except StorageError ResourceStore :=
  s.putCollection collection |>.linkCollectionMembers collection.id sourceIds connectorIds

def unlinkCollectionSource (collectionId : CollectionId) (sourceId : SourceId) : ResourceStore :=
  { s with
    collectionSources := s.collectionSources.erase (collectionId, sourceId)
    source_links      := fun link h => s.source_links link (Finset.mem_of_mem_erase h) }

def unlinkCollectionConnector (collectionId : CollectionId) (connectorId : ConnectorId) :
    ResourceStore :=
  { s with
    collectionConnectors := s.collectionConnectors.erase (collectionId, connectorId)
    connector_links      := fun link h => s.connector_links link (Finset.mem_of_mem_erase h) }

def append (entry : AuditEntry) : ResourceStore :=
  { s with auditLog := s.auditLog ++ [entry] }

end ResourceStore

-- A row which a POST makes.
inductive Row
  | source (s : Source)
  | connector (c : Connector)
  | seed (s : Seed)
  | collection (c : Collection)

inductive Kind
  | source | connector | seed | collection
  deriving DecidableEq, Repr

namespace Row

def kind : Row → Kind
  | source _     => .source
  | connector _  => .connector
  | seed _       => .seed
  | collection _ => .collection

def id : Row → Uuid
  | source s     => s.id
  | connector c  => c.id
  | seed s       => s.id
  | collection c => c.id

def key (r : Row) : Kind × Uuid :=
  (r.kind, r.id)

end Row

def ResourceStore.row? (s : ResourceStore) : Kind × Uuid → Option Row
  | (.source, id)     => .source <$> s.getSource id
  | (.connector, id)  => .connector <$> s.getConnector id
  | (.seed, id)       => .seed <$> s.getSeed id
  | (.collection, id) => .collection <$> s.getCollection id

end Resources
