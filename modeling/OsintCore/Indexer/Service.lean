import OsintCore.Indexer.Projection

-- Durations are in microseconds, as the timestamps.
structure IndexBounds where
  batchSize      : Nat := 200
  batchTimeout   : Int := 1000000
  maxFieldBytes  : Nat := 256 * 1024
  bulkMaxRetries : Nat := 3

-- How a timestamp is written is a parameter of the indexer.
structure Indexer where
  bounds  : IndexBounds
  rfc3339 : Timestamp → String

inductive IndexerError
  | storage
  | missingField (field : String)
  | bulkRetriesExhausted (attempts status : Nat)
  deriving DecidableEq, Repr

instance : Keyed Indexer.IndexEntity Uuid := ⟨Indexer.IndexEntity.entityId⟩

namespace Indexer

inductive PrepareOutcome
  | ready (document : SearchDocument)
  | removedDuplicate (documentId : DocumentId) (wasIndexed : Bool)
  | missing (documentId : DocumentId)

structure FlushReport where
  submitted         : Nat
  indexed           : Nat              := 0
  permanentFailures : List BulkFailure := []
  retries           : Nat              := 0

-- A read of the store fails, or the deletion from the index does, whether it takes place or not.
inductive Fault
  | relational
  | delete (applied : Bool)
  deriving DecidableEq

def extractionLimit : Nat := 100

def documentIdFromPayload (payload : Json) : Except IndexerError DocumentId :=
  match payload.get "document_id" >>= Json.asStr >>= Uuid.parseStr with
  | some id => .ok id
  | none    => .error (.missingField "document_id")

section

variable (σ : IndexerStore)

-- The first extraction of an entity counts, and the entities are listed by their ids.
def loadEntities (documentId : DocumentId) : List IndexEntity :=
  Table.rows <| (σ.listEntityExtractionsByObject documentId extractionLimit).foldl
    (fun byId x =>
      if (byId.get? x.entityId).isSome then byId
      else match σ.getEntity x.entityId with
        | some entity => byId.put (.fromEntity entity)
        | none        => byId)
    (∅ : Table IndexEntity)

def loadProvenance (document : Document) : Provenance :=
  match document.attributes.get "raw_evidence_id" >>= Json.asStr >>= Uuid.parseStr with
  | none    => {}
  | some id =>
    let evidence := σ.getRawEvidence id
    { rawEvidenceId := some id
      sourceId      := evidence.map (·.sourceId)
      connectorId   := evidence.map (·.connectorId) }

end

variable (w : Indexer)

-- A duplicate leaves the index at once.
def prepare (σ : IndexerStore) (index : SearchIndex) (documentId : DocumentId) (now : Timestamp)
    (fault : Option Fault) : Except IndexerError PrepareOutcome × SearchIndex :=
  if fault = some .relational then (.error .storage, index)
  else
    match σ.getDocument documentId with
    | none          => (.ok (.missing documentId), index)
    | some document =>
      if document.duplicateOf.isSome then
        let (wasIndexed, deleted) := index.delete documentId
        match fault with
        | some (.delete applied) => (.error .storage, if applied then deleted else index)
        | _                      => (.ok (.removedDuplicate documentId wasIndexed), deleted)
      else
        let entities   := loadEntities σ documentId
        let provenance := loadProvenance σ document
        (.ok <| .ready <| buildSearchDocument w.rfc3339 document provenance entities now
          w.bounds.maxFieldBytes, index)

-- The attempts from the `attempt`-th on, of which `left` may be repeated.
def flushLoop (replies : Nat → BulkReply) (attempt : Nat) :
    (left : Nat) → List SearchDocument → FlushReport → SearchIndex →
      Except IndexerError FlushReport × SearchIndex
  | left, pending, report, index =>
    match index.bulkUpsertFields pending (replies attempt) with
    | (.error _, index)   => (.error .storage, index)
    | (.ok result, index) =>
      let report    := { report with indexed := report.indexed + result.indexed }
      let retryable := result.failures.filter (·.isRetryable)
      let permanent := result.failures.filter (¬·.isRetryable)
      let report    := { report with permanentFailures := report.permanentFailures ++ permanent }
      match retryable, left with
      | [], _                => (.ok report, index)
      | failure :: _, 0      => (.error <| .bulkRetriesExhausted (attempt + 1) failure.status, index)
      | _ :: _, left + 1     =>
        let pending := pending.filter fun d => d.id ∈ retryable.map (·.id)
        flushLoop replies (attempt + 1) left pending
          { report with retries := report.retries + 1 } index

def flush (batch : List SearchDocument) (replies : Nat → BulkReply) (index : SearchIndex) :
    Except IndexerError FlushReport × SearchIndex :=
  if batch.isEmpty then (.ok ⟨0, 0, [], 0⟩, index)
  else flushLoop replies 0 w.bounds.bulkMaxRetries batch ⟨batch.length, 0, [], 0⟩ index

end Indexer
