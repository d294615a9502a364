import OsintCore.Resources.Create

namespace Resources

def linkPage                   : Nat    := 100
def maxLinksPerRequest         : Nat    := 100
def maxCollectionsPerSource    : Nat    := 50
def maxCollectionsPerConnector : Nat    := 50
def collectionMaxName          : Nat    := 200
def collectionMaxDescription   : Nat    := 2000
def collectionMaxStatus        : Nat    := 32
def collectionDefaultStatus    : String := "active"

def checkLinkCount (field : String) (count : Nat) : Except ApiError Unit :=
  if maxLinksPerRequest < count then
    .error <| .badRequest <| quoted field ++ " 一次最多 " ++ toString maxLinksPerRequest ++
      " 筆（收到 " ++ toString count ++ " 筆）。請分批建立"
  else
    .ok ()

def formatIdList (ids : List Uuid) : String :=
  ", ".intercalate <| ids.map (quoted ·.toText)

def membershipOverCapacityError (overSources overConnectors : List Uuid)
    (nothingWritten : String) : ApiError :=
  let sources := if overSources = [] then [] else ["以下來源已經各屬於 " ++
    toString maxCollectionsPerSource ++ " 個集合，無法再掛上這個：" ++ formatIdList overSources]
  let connectors := if overConnectors = [] then [] else ["以下連接器已經各屬於 " ++
    toString maxCollectionsPerConnector ++ " 個集合，無法再掛上這個：" ++
    formatIdList overConnectors]
  .unprocessable <| "。".intercalate (sources ++ connectors) ++ "。一個來源／連接器最多屬於 " ++
    toString maxCollectionsPerSource ++ " 個集合，因為收集時來源與連接器各最多讀 " ++
    toString linkPage ++ " 個集合，寫入端把每邊卡在 " ++ toString maxCollectionsPerSource ++
    " 才能一次讀完全部。請先從其他集合解除關聯" ++
    "（DELETE /api/v1/collections/\x7bid\x7d/sources/\x7bsource_id\x7d " ++
    "或 .../connectors/\x7bconnector_id\x7d），或把超限的 id 從這次請求拿掉；" ++ nothingWritten

-- The links could be written when they were checked, so that a constraint means that a row has been
-- deleted since.
def linkWriteError (c : Call) (nothingWritten : String) : StorageError → ApiError
  | .constraintViolation =>
    .unprocessable <| "有來源或連接器在檢查後、寫入前被刪除（或 id 不存在），整批已回滾；" ++
      nothingWritten ++ "。請用 GET /api/v1/sources、GET /api/v1/connectors 確認 id 後重試"
  | e => c.storageError e

-- The identifiers which belong to too many collections to get another one. Each is looked up once.
def overCapacity (c : Call) (access : Uuid → Access)
    (list : ResourceStore → Uuid → Nat → List CollectionId) (max : Nat)
    (collectionId : CollectionId) (ids : List Uuid) : M (List Uuid) :=
  Prod.snd <$> ids.foldlM visit (∅, [])
where
  visit (found : Finset Uuid × List Uuid) (id : Uuid) : M (Finset Uuid × List Uuid) :=
    if id ∈ found.fst then
      return found
    else do
      let existing ← c.read (access id) (list · id linkPage)
      if collectionId ∉ existing ∧ max ≤ existing.length then
        return (insert id found.fst, found.snd ++ [id])
      else
        return (insert id found.fst, found.snd)

def checkMembershipCapacity (c : Call) (collectionId : CollectionId)
    (sourceIds connectorIds : List Uuid) (nothingWritten : String) : M Unit := do
  let overSources ← overCapacity c .listCollectionsBySource (·.listCollectionsBySource)
    maxCollectionsPerSource collectionId sourceIds
  let overConnectors ← overCapacity c .listCollectionsByConnector (·.listCollectionsByConnector)
    maxCollectionsPerConnector collectionId connectorIds
  if overSources = [] ∧ overConnectors = [] then
    return ()
  else
    .fail <| membershipOverCapacityError overSources overConnectors nothingWritten

def sourceExists (id : SourceId) (s : ResourceStore) : Bool :=
  (s.getSource id).isSome

def connectorExists (id : ConnectorId) (s : ResourceStore) : Bool :=
  (s.getConnector id).isSome

section Create

structure CreateCollectionBody where
  id           : Option Uuid   := none
  name         : String
  workspaceId  : Option Uuid   := none
  description  : Option String := none
  status       : Option String := none
  priority     : Int32         := 0
  sourceIds    : List Uuid     := []
  connectorIds : List Uuid     := []

def CreateCollectionBody.build (body : CreateCollectionBody) (id : CollectionId)
    (now : Timestamp) : Except ApiError Collection := do
  let name        ← validateText "name" body.name collectionMaxName
  let description ← validateOptionalText "description" body.description collectionMaxDescription
  let status      ←
    validateTextOr "status" body.status collectionMaxStatus collectionDefaultStatus
  return {
    id, name, description, status
    workspaceId := body.workspaceId
    priority    := body.priority
    createdAt   := now
    updatedAt   := now }

def nothingCreated : String := "這次沒有建立任何東西"

-- The first identifier which does not exist ends the request.
def checkEach (c : Call) (field : String) (access : Uuid → Access)
    (present : Uuid → ResourceStore → Bool) (ids : List Uuid) : M Unit :=
  ids.forM fun id => do
    unless ← c.read (access id) (present id) do
      .fail <| .unprocessable <| field ++ " 裡的 " ++ quoted id.toText ++
        " 不存在。請先建立它，或把它從清單移除；" ++ nothingCreated

def detail (c : Call) (collection : Collection) (objectIds : M (List ObjectId)) :
    M CollectionDetail := do
  let sourceIds ← c.read .listCollectionSources (·.listCollectionSources collection.id linkPage)
  let connectorIds ←
    c.read .listCollectionConnectors (·.listCollectionConnectors collection.id linkPage)
  let objectIds ← objectIds
  return {
    collection, sourceIds, connectorIds, objectIds
    sourcesTruncated    := linkPage ≤ sourceIds.length
    connectorsTruncated := linkPage ≤ connectorIds.length
    objectsTruncated    := linkPage ≤ objectIds.length }

def collectionCreation (body : CreateCollectionBody) : Creation Collection where
  action      := "collection.create"
  resource    := "collection"
  requestedId := body.id
  extra       := []
  row         := .collection
  prepare c   := do
    .ofExcept <| checkLinkCount "source_ids" body.sourceIds.length
    .ofExcept <| checkLinkCount "connector_ids" body.connectorIds.length
    checkEach c "source_ids" .getSource sourceExists body.sourceIds
    checkEach c "connector_ids" .getConnector connectorExists body.connectorIds
    let id ← identify c body.id .getCollection (fun id s => (s.getCollection id).isSome) fun id =>
      "Collection " ++ quoted id ++ " 已經存在。POST 是建立，不會覆寫既有資料；" ++
        "要改請省略 id 讓伺服器產生新的"
    checkMembershipCapacity c id body.sourceIds body.connectorIds nothingCreated
    .ofExcept <| body.build id c.now
  put _ collection s  := s.createCollectionWithMembers collection body.sourceIds body.connectorIds
  refusal c           := linkWriteError c nothingCreated
  answer c collection := .collection <$> detail c collection (return [])
  metadata
    | .collection d => .object [("name", .string d.collection.name),
      ("linked_sources", .number d.sourceIds.length),
      ("linked_connectors", .number d.connectorIds.length)]
    | _             => .null

def createCollection (c : Call) (body : CreateCollectionBody) : M Created :=
  (collectionCreation body).create c

end Create

section Link

def nothingLinked : String := "這次沒有寫入任何關聯"

def load (c : Call) (access : Access) (id : CollectionId) : M Collection := do
  match ← c.read access (·.getCollection id) with
  | some collection => return collection
  | none            => .fail <| .notFound <| "找不到 Collection " ++ quoted id.toText ++
    "。請用 GET /api/v1/collections 確認 id"

def detailOf (c : Call) (id : CollectionId) : M CollectionDetail := do
  let collection ← load c .reload id
  detail c collection (c.read .listCollectionObjects (·.listCollectionObjects id linkPage))

-- A request which changes the links of a collection.
def audited {α : Type} (c : Call) (action : String) (id : CollectionId)
    (extra : List (String × Json)) (metadata : α → Json) (inner : M α) : M α := do
  .ofExcept (c.role.require .write)
  match ← (inner.outcome : M (Except ApiError α)) with
  | .ok a    => do
    c.audit (entry "success" (metadata a))
    return a
  | .error e => do
    c.audit (entry "rejected" (rejectedMetadata e extra))
    .fail e
where
  entry (outcome : String) (metadata : Json) : AuditEntry :=
    { id           := c.auditId
      timestamp    := c.auditedAt
      actor        := c.subject
      action
      resourceType := "collection"
      resourceId   := some id.toText
      outcome
      ip           := c.ip
      metadata }

-- All identifiers which do not exist are listed.
def missing (c : Call) (access : Uuid → Access) (present : Uuid → ResourceStore → Bool)
    (ids : List Uuid) : M (List Uuid) :=
  ids.foldlM (fun found id => do
    if ← c.read (access id) (present id) then return found else return found ++ [id]) []

-- What linking sources and linking connectors have in common.
def linkInner (c : Call) (collectionId : CollectionId) (field resource : String)
    (access : Uuid → Access) (present : Uuid → ResourceStore → Bool) (ids : List Uuid)
    (sourceIds connectorIds : List Uuid) : M CollectionDetail := do
  let _ ← load c (.getCollection collectionId) collectionId
  if ids = [] then
    .fail <| .badRequest <| quoted field ++ " 不可為空。請至少給一個已存在的 " ++ resource ++ " id"
  else
    .ofExcept <| checkLinkCount field ids.length
    let missing ← missing c access present ids
    if missing ≠ [] then
      .fail <| .unprocessable <| field ++ " 裡的 " ++
        quoted (", ".intercalate <| missing.map Uuid.toText) ++
        " 不存在。請先建立它，或把它從清單移除；" ++ nothingLinked
    else
      checkMembershipCapacity c collectionId sourceIds connectorIds nothingLinked
      match ← c.write (·.linkCollectionMembers collectionId sourceIds connectorIds) with
      | .ok ()   => detailOf c collectionId
      | .error e => .fail <| linkWriteError c nothingLinked e

def linkSourcesInner (c : Call) (collectionId : CollectionId) (sourceIds : List SourceId) :
    M CollectionDetail :=
  linkInner c collectionId "source_ids" "Source" .getSource sourceExists sourceIds sourceIds []

def linkConnectorsInner (c : Call) (collectionId : CollectionId)
    (connectorIds : List ConnectorId) : M CollectionDetail :=
  linkInner c collectionId "connector_ids" "Connector" .getConnector connectorExists connectorIds
    [] connectorIds

def linkSources (c : Call) (id : CollectionId) (sourceIds : List SourceId) : M CollectionDetail :=
  audited c "collection.link_source" id []
    (fun d => .object [("linked_sources", .number d.sourceIds.length)])
    (linkSourcesInner c id sourceIds)

def linkConnectors (c : Call) (id : CollectionId) (connectorIds : List ConnectorId) :
    M CollectionDetail :=
  audited c "collection.link_connector" id []
    (fun d => .object [("linked_connectors", .number d.connectorIds.length)])
    (linkConnectorsInner c id connectorIds)

def unlinkInner (c : Call) (collectionId : CollectionId) (resource path : String)
    (access : Uuid → Access) (present : Uuid → ResourceStore → Bool) (id : Uuid)
    (unlink : ResourceStore → ResourceStore) : M Unit := do
  let _ ← load c (.getCollection collectionId) collectionId
  unless ← c.read (access id) (present id) do
    .fail <| .notFound <| "找不到 " ++ resource ++ " " ++ quoted id.toText ++ "。請用 GET " ++
      path ++ " 確認 id"
  match ← c.write (.ok <| unlink ·) with
  | .ok ()   => return ()
  | .error e => .fail (c.storageError e)

def unlinkSource (c : Call) (id : CollectionId) (sourceId : SourceId) : M Unit :=
  let extra := [("source_id", .string sourceId.toText)]
  audited c "collection.unlink_source" id extra (fun _ => .object extra) <|
    unlinkInner c id "Source" "/api/v1/sources" .getSource sourceExists sourceId
      (·.unlinkCollectionSource id sourceId)

def unlinkConnector (c : Call) (id : CollectionId) (connectorId : ConnectorId) : M Unit :=
  let extra := [("connector_id", .string connectorId.toText)]
  audited c "collection.unlink_connector" id extra (fun _ => .object extra) <|
    unlinkInner c id "Connector" "/api/v1/connectors" .getConnector connectorExists connectorId
      (·.unlinkCollectionConnector id connectorId)

end Link

end Resources
