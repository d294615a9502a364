import OsintCore.Api.Pagination
import OsintCore.Connector.RunState
import OsintCore.Control.Resumption
import OsintCore.Normalizer.Store

namespace Sink

-- What has been fetched. No vector has more than `isize::MAX` bytes.
structure NewRawEvidence where
  sourceId         : SourceId
  connectorId      : ConnectorId
  collectionIds    : List CollectionId
  externalId       : Option String
  sourceUrl        : String
  retrievedAt      : Timestamp
  contentType      : Option String
  mimeType         : Option String
  httpStatus       : Option Int32
  httpHeaders      : Json
  metadata         : Json
  collectorVersion : String
  body             : Body
  body_length      : body.length < 2 ^ 63 := by decide

structure RawEvidence where
  id               : RawEvidenceId
  sourceId         : SourceId
  connectorId      : ConnectorId
  externalId       : Option String
  sourceUrl        : String
  retrievedAt      : Timestamp
  contentType      : Option String
  mimeType         : Option String
  contentLength    : Option Int
  sha256           : String
  storagePath      : String
  httpStatus       : Option Int32
  httpHeaders      : Json
  metadata         : Json
  collectorVersion : String

instance : Keyed RawEvidence Uuid := ⟨RawEvidence.id⟩

@[simp]
theorem RawEvidence.key_eq (r : RawEvidence) : Keyed.key r = r.id :=
  rfl

-- The hash, and the date of a storage path.
structure SinkLib where
  sha256Hex : Body → String
  date      : Timestamp → String

def storagePath (lib : SinkLib) (sourceId : SourceId) (retrievedAt : Timestamp)
    (id : RawEvidenceId) : String :=
  "raw/" ++ Uuid.toText sourceId ++ "/" ++ lib.date retrievedAt ++ "/" ++ Uuid.toText id

-- The table and the bucket, which have no common transaction.
structure State where
  rawEvidence            : Table RawEvidence                   := ∅
  rawEvidenceCollections : List (RawEvidenceId × CollectionId) := []
  objects                : String → Option Body                := fun _ => none

namespace State

def putObject (s : State) (path : String) (body : Body) : State :=
  { s with objects := Function.update s.objects path (some body) }

def deleteObject (s : State) (path : String) : State :=
  { s with objects := Function.update s.objects path none }

-- The row and its links are written in one transaction.
def insertRawEvidence (s : State) (r : RawEvidence) (ids : List CollectionId) : Option State :=
  if (s.rawEvidence.get? r.id).isSome then none
  else some { s with
    rawEvidence            := s.rawEvidence.put r
    rawEvidenceCollections := s.rawEvidenceCollections ++ ids.dedup.map (r.id, ·) }

end State

inductive Failure
  | storage
  | crash
  deriving DecidableEq

-- A call is answered; it fails without having been carried out, or although it has been; or the
-- process crashes while it waits for the answer.
inductive Reply
  | answered
  | failed
  | lost
  | crashed (carriedOut : Bool)
  deriving DecidableEq

def Reply.carriedOut : Reply → Bool
  | answered  => true
  | failed    => false
  | lost      => true
  | crashed b => b

abbrev M := Resumption State Failure

-- Whether the call is known to have been carried out. A call may be refused, which is an answer.
def Reply.call (r : Reply) (f : State → Option State) : M Bool :=
  .step (fun s => if r.carriedOut then (f s).getD s else s) fun s =>
    match r with
    | .answered  => .done (f s).isSome
    | .failed    => .done false
    | .lost      => .done false
    | .crashed _ => .fail .crash

-- The identifier which the library makes up in a call, and how the stores reply.
structure Call where
  id     : RawEvidenceId
  put    : Reply
  insert : Reply
  delete : Reply

def NewRawEvidence.record (e : NewRawEvidence) (lib : SinkLib) (id : RawEvidenceId) : RawEvidence where
  id               := id
  sourceId         := e.sourceId
  connectorId      := e.connectorId
  externalId       := e.externalId
  sourceUrl        := e.sourceUrl
  retrievedAt      := e.retrievedAt
  contentType      := e.contentType
  mimeType         := e.mimeType
  contentLength    := some <| min e.body.length (2 ^ 63 - 1)
  sha256           := lib.sha256Hex e.body
  storagePath      := storagePath lib e.sourceId e.retrievedAt id
  httpStatus       := e.httpStatus
  httpHeaders      := e.httpHeaders
  metadata         := e.metadata
  collectorVersion := e.collectorVersion

def persist (lib : SinkLib) (c : Call) (e : NewRawEvidence) : M RawEvidence := do
  let path := storagePath lib e.sourceId e.retrievedAt c.id
  let put ← c.put.call fun s => some (s.putObject path e.body)
  if ¬put then
    .fail .storage
  else do
    let record := e.record lib c.id
    let inserted ← c.insert.call (·.insertRawEvidence record e.collectionIds)
    if inserted then
      return record
    else do
      let _ ← c.delete.call fun s => some (s.deleteObject record.storagePath)
      .fail .storage

end Sink
