import OsintCore.Resources.Store

namespace Resources

abbrev M := Resumption ResourceStore ApiError

-- The calls of the store which a request makes.
inductive Access
  | getSource (id : SourceId)
  | getConnector (id : ConnectorId)
  | getSeed (id : SeedId)
  | getCollection (id : CollectionId)
  | listCollectionsBySource (id : SourceId)
  | listCollectionsByConnector (id : ConnectorId)
  | write
  | reload
  | listCollectionSources
  | listCollectionConnectors
  | listCollectionObjects
  | append
  deriving DecidableEq

-- A call is answered, is not carried out, or is carried out while its answer gets lost.
inductive Reply
  | answered | failed | lost
  deriving DecidableEq, Repr

-- Who sends a request, what the library makes up for it, and how the calls of the store go.
structure Call where
  role            : Role
  subject         : String
  ip              : Option String
  now             : Timestamp
  newId           : Uuid
  eventId         : Uuid
  auditId         : Uuid
  auditedAt       : Timestamp
  databaseMessage : String
  reply           : Access → Reply

namespace Call

variable (c : Call)

def read {α : Type} (a : Access) (f : ResourceStore → α) : M α :=
  if c.reply a = .answered then .read f else .fail .unavailable

def write (f : ResourceStore → Except StorageError ResourceStore) :
    M (Except StorageError Unit) :=
  match c.reply .write with
  | .answered => .attempt f
  | .failed   => .step id fun _ => .fail .unavailable
  | .lost     => .step (fun s => (f s).toOption.getD s) fun _ => .fail .unavailable

-- That an entry cannot be appended is logged and nothing else.
def audit (entry : AuditEntry) : M Unit :=
  .step (if c.reply .append = .failed then id else (·.append entry)) fun _ => .done ()

def storageError : StorageError → ApiError
  | .conflict            => .conflict <| "寫入衝突：" ++ c.databaseMessage
  | .constraintViolation => .badRequest <| "資料約束不符：" ++ c.databaseMessage

end Call

def rejectedMetadata (e : ApiError) (extra : List (String × Json)) : Json :=
  .object <| extra ++ [("status_code", .number e.status), ("error", .string e.error)]

structure CollectionDetail where
  collection          : Collection
  sourceIds           : List SourceId
  connectorIds        : List ConnectorId
  objectIds           : List ObjectId
  sourcesTruncated    : Bool
  connectorsTruncated : Bool
  objectsTruncated    : Bool

-- What a POST is answered with.
inductive Created
  | source (s : Source)
  | connector (c : Connector)
  | seed (s : Seed)
  | collection (d : CollectionDetail)

def Created.row : Created → Row
  | source s     => .source s
  | connector c  => .connector c
  | seed s       => .seed s
  | collection d => .collection d.collection

-- What the handlers which create a row differ in.
structure Creation (ρ : Type) where
  action      : String
  resource    : String
  requestedId : Option Uuid
  extra       : List (String × Json)
  row         : ρ → Row
  prepare     : Call → M ρ
  put         : Call → ρ → ResourceStore → Except StorageError ResourceStore
  refusal     : Call → StorageError → ApiError
  answer      : Call → ρ → M Created
  metadata    : Created → Json

namespace Creation

variable {ρ : Type} (k : Creation ρ) (c : Call)

-- What is left to do once all checks have passed.
def store (row : ρ) : M Created := do
  match ← c.write (k.put c row) with
  | .ok ()   => k.answer c row
  | .error e => .fail (k.refusal c e)

def successEntry (created : Created) : AuditEntry where
  id           := c.auditId
  timestamp    := c.auditedAt
  actor        := c.subject
  action       := k.action
  resourceType := k.resource
  resourceId   := some created.row.id.toText
  outcome      := "success"
  ip           := c.ip
  metadata     := k.metadata created

def rejectedEntry (e : ApiError) : AuditEntry where
  id           := c.auditId
  timestamp    := c.auditedAt
  actor        := c.subject
  action       := k.action
  resourceType := k.resource
  resourceId   := k.requestedId.map Uuid.toText
  outcome      := "rejected"
  ip           := c.ip
  metadata     := rejectedMetadata e k.extra

def respond : Except ApiError Created → M Created
  | .ok created => do
    c.audit (k.successEntry c created)
    return created
  | .error e => do
    c.audit (k.rejectedEntry c e)
    .fail e

-- The rest of the handler from the write on.
def save (row : ρ) : M Created := do
  k.respond c (← (k.store c row).outcome)

def create : M Created := do
  .ofExcept (c.role.require .write)
  k.respond c (← (do k.store c (← k.prepare c)).outcome)

end Creation

-- The explicit identifier must not be taken; otherwise the library makes one up.
def identify (c : Call) (requested : Option Uuid) (access : Uuid → Access)
    (taken : Uuid → ResourceStore → Bool) (conflict : String → String) : M Uuid :=
  match requested with
  | none    => return c.newId
  | some id => do
    if ← c.read (access id) (taken id) then
      .fail <| .conflict <| conflict id.toText
    else
      return id

section Sources

def sourceMaxName        : Nat := 200
def sourceMaxDescription : Nat := 2000
def sourceMaxUrl         : Nat := 2048
def sourceMaxCode        : Nat := 16
def sourceMaxPlatform    : Nat := 64

structure CreateSourceBody where
  id               : Option Uuid    := none
  name             : String
  sourceType       : SourceType
  platform         : Option String  := none
  baseUrl          : Option String  := none
  description      : Option String  := none
  language         : Option String  := none
  country          : Option String  := none
  enabled          : Bool           := true
  collectionPolicy : Json           := .object []

def kindOf : Json → String
  | .null     => "null"
  | .bool _   => "布林"
  | .number _ => "數字"
  | .float _  => "數字"
  | .string _ => "字串"
  | .array _  => "陣列"
  | .object _ => "物件"

def sourceValidateObject (field : String) (value : Json) : Except ApiError Json :=
  if value.asObject.isSome then
    .ok value
  else
    .error <| .badRequest <| quoted field ++ " 必須是 JSON 物件（例如 \x7b\x7d），目前是 " ++
      kindOf value

def CreateSourceBody.build (body : CreateSourceBody) (id : SourceId) (now : Timestamp) :
    Except ApiError Source := do
  let name             ← validateText "name" body.name sourceMaxName
  let platform         ← validateOptionalText "platform" body.platform sourceMaxPlatform
  let baseUrl          ← validateOptionalText "base_url" body.baseUrl sourceMaxUrl
  let description      ← validateOptionalText "description" body.description sourceMaxDescription
  let language         ← validateOptionalText "language" body.language sourceMaxCode
  let country          ← validateOptionalText "country" body.country sourceMaxCode
  let collectionPolicy ← sourceValidateObject "collection_policy" body.collectionPolicy
  return {
    id, name, platform, baseUrl, description, language, country, collectionPolicy
    sourceType := body.sourceType
    enabled    := body.enabled
    createdAt  := now
    updatedAt  := now
    lastSeen   := none }

def sourceCreation (body : CreateSourceBody) : Creation Source where
  action      := "source.create"
  resource    := "source"
  requestedId := body.id
  extra       := []
  row         := .source
  prepare c   := do
    let id ← identify c body.id .getSource (fun id s => (s.getSource id).isSome) fun id =>
      "Source " ++ quoted id ++ " 已經存在。POST 是建立，不會覆寫既有資料；要改請用 PATCH " ++
        "/api/v1/sources/" ++ id ++ "，或省略 id 讓伺服器產生新的"
    .ofExcept <| body.build id c.now
  put _ source s  := .ok (s.putSource source)
  refusal c       := c.storageError
  answer _ source := return .source source
  metadata
    | .source source => .object [("name", .string source.name),
      ("source_type", .string source.sourceType.asStr)]
    | _              => .null

def createSource (c : Call) (body : CreateSourceBody) : M Created :=
  (sourceCreation body).create c

end Sources

section Connectors

def connectorMaxName        : Nat    := 200
def connectorMaxType        : Nat    := 64
def connectorMaxVersion     : Nat    := 64
def connectorMaxStatus      : Nat    := 32
def connectorMaxSchedule    : Nat    := 128
def connectorDefaultVersion : String := "0.1.0"
def connectorDefaultStatus  : String := "idle"

structure CreateConnectorBody where
  id                  : Option Uuid   := none
  sourceId            : SourceId
  name                : String
  connectorType       : String
  version             : Option String := none
  enabled             : Bool          := true
  configuration       : Json          := .object []
  credentialReference : Option String := none
  schedule            : Option String := none
  rateLimit           : Json          := .object []
  timeout             : Json          := .object []
  proxyReference      : Option String := none
  checkpoint          : Json          := .object []
  status              : Option String := none

def connectorValidateObject (field : String) (value : Json) : Except ApiError Json :=
  if value.asObject.isSome then
    .ok value
  else
    .error <| .badRequest <| quoted field ++ " 必須是 JSON 物件（例如 \x7b\x7d）"

def CreateConnectorBody.build (body : CreateConnectorBody) (id : ConnectorId) :
    Except ApiError Connector := do
  let name                ← validateText "name" body.name connectorMaxName
  let connectorType       ← validateText "type" body.connectorType connectorMaxType
  let version             ←
    validateTextOr "version" body.version connectorMaxVersion connectorDefaultVersion
  let configuration       ← connectorValidateObject "configuration" body.configuration
  let credentialReference ← validateSecretRef "credential_reference" body.credentialReference
  let schedule            ← validateOptionalText "schedule" body.schedule connectorMaxSchedule
  let rateLimit           ← connectorValidateObject "rate_limit" body.rateLimit
  let timeout             ← connectorValidateObject "timeout" body.timeout
  let proxyReference      ← validateSecretRef "proxy_reference" body.proxyReference
  let checkpoint          ← connectorValidateObject "checkpoint" body.checkpoint
  let status              ←
    validateTextOr "status" body.status connectorMaxStatus connectorDefaultStatus
  return {
    id, name, connectorType, version, configuration, credentialReference, schedule, rateLimit
    timeout, proxyReference, checkpoint, status
    sourceId    := body.sourceId
    enabled     := body.enabled
    lastRun     := none
    lastSuccess := none
    errorCount  := 0 }

def connectorCreation (body : CreateConnectorBody) : Creation Connector where
  action      := "connector.create"
  resource    := "connector"
  requestedId := body.id
  extra       := [("source_id", .string body.sourceId.toText)]
  row         := .connector
  prepare c   := do
    unless ← c.read (.getSource body.sourceId) (fun s => (s.getSource body.sourceId).isSome) do
      .fail <| .unprocessable <| "找不到 Source " ++ quoted body.sourceId.toText ++
        "。Connector 必須掛在既有的 Source 底下；請先 POST /api/v1/sources 建立，" ++
        "或用 GET /api/v1/sources 找到正確的 id"
    let id ← identify c body.id .getConnector (fun id s => (s.getConnector id).isSome) fun id =>
      "Connector " ++ quoted id ++ " 已經存在。POST 是建立，不會覆寫既有資料；要改請用 PATCH " ++
        "/api/v1/connectors/" ++ id ++ "，或省略 id 讓伺服器產生新的"
    .ofExcept <| body.build id
  put _ connector s  := s.putConnector connector
  refusal c          := c.storageError
  answer _ connector := return .connector connector
  metadata
    | .connector connector => .object [("source_id", .string connector.sourceId.toText),
      ("name", .string connector.name), ("type", .string connector.connectorType),
      ("enabled", .bool connector.enabled)]
    | _                    => .null

def createConnector (c : Call) (body : CreateConnectorBody) : M Created :=
  (connectorCreation body).create c

end Connectors

section Seeds

def maxSeedValue : Nat := 2048

structure CreateSeedBody where
  id           : Option Uuid := none
  seedType     : SeedType
  value        : String
  collectionId : Option Uuid := none
  entityId     : Option Uuid := none
  priority     : Int32       := 0
  confidence   : Confidence  := 1
  origin       : SeedOrigin
  status       : String      := "pending"
  depth        : Int32       := 0

def CreateSeedBody.build (body : CreateSeedBody) (id : SeedId) (now : Timestamp) :
    Except ApiError Seed := do
  let value ← validateText "value" body.value maxSeedValue
  return {
    id, value
    collectionId := body.collectionId
    seedType     := body.seedType
    entityId     := body.entityId
    priority     := body.priority
    confidence   := body.confidence
    origin       := body.origin
    status       := body.status
    depth        := body.depth
    createdAt    := now }

def seedEvent (c : Call) (seed : Seed) : OutboxEvent where
  id            := c.eventId
  topic         := "seed.created"
  partitionKey  := (SeedCreated.fromSeed seed).partitionKey
  correlationId := some seed.id
  payload       := .fromSeed seed
  sourceService := "core-api"
  createdAt     := c.now
  attempts      := 0
  lastError     := none
  nextAttemptAt := c.now
  publishedAt   := none

-- The row and its event are written in one transaction.
def seedCreation (body : CreateSeedBody) : Creation Seed where
  action      := "seed.create"
  resource    := "seed"
  requestedId := body.id
  extra       := []
  row         := .seed
  prepare c   := do
    let id ← identify c body.id .getSeed (fun id s => (s.getSeed id).isSome) fun id =>
      "Seed " ++ quoted id ++ " 已經存在。POST 是建立，不會覆寫既有資料；" ++
        "請省略 id 讓伺服器產生新的"
    .ofExcept <| body.build id c.now
  put c seed s  := (·.enqueueOutbox (seedEvent c seed)) <$> s.putSeed seed
  refusal c     := c.storageError
  answer _ seed := return .seed seed
  metadata
    | .seed seed => .object [("seed_type", .string seed.seedType.asStr),
      ("value", .string seed.value)]
    | _          => .null

def createSeed (c : Call) (body : CreateSeedBody) : M Created :=
  (seedCreation body).create c

end Seeds

end Resources
